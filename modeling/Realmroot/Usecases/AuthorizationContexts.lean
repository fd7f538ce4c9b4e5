import Realmroot.Usecases.OAuthTokens

/-!
# Contexts of an authorization

The contexts that a user may choose from when an Application asks for authorization: an
organization of which the user is a member, or the user's own account.
-/

namespace Realmroot

open AtomicProgram Error

/-- The user of the session. -/
structure SessionUser extends OAuthUser where
  email : Option String := none
  name : Option String := none
  username : Option String := none
  deriving DecidableEq

inductive AuthorizationContextType where
  | organization
  | user
  deriving DecidableEq

structure OAuthAuthorizationContext where
  id : String
  type : AuthorizationContextType
  displayName : String
  description : String
  organizationId : Option String
  deriving DecidableEq

/-- The organizations that own what is private, each once. -/
def requiredOrganizationIds (application : ApplicationAggregate)
    (resources : List (Option ApiResource)) : List String :=
  unique ((if application.visibility = .private then [application.ownerOrganizationId] else []) ++
    ((resources.filterMap id).filter fun resource => resource.visibility = .private).map
      (·.ownerOrganizationId))

def organizationContext (organization : Organization) : OAuthAuthorizationContext :=
  { id := "organization:" ++ organization.id
    type := .organization
    displayName := organization.displayName.getD organization.name
    description := "Organization Context"
    organizationId := some organization.id }

def accountContext (user : SessionUser) : OAuthAuthorizationContext :=
  { id := "user:" ++ user.id
    type := .user
    displayName := (user.name.or (user.username.or user.email)).getD "Personal account"
    description :=
      match truthy user.email with
      | some email => "User Context · " ++ email
      | none => "User Context"
    organizationId := none }

/-- The contexts of the organizations that are not disabled, and of the user when no
organization is required. -/
def contextsOf (user : SessionUser) (required : Option String)
    (organizations : List (Option Organization)) : List OAuthAuthorizationContext :=
  let active := (organizations.filterMap id).filter fun organization => !organization.disabled
  match required with
  | some organizationId =>
    (active.filter fun organization => organization.id = organizationId).map organizationContext
  | none => accountContext user :: active.map organizationContext

/-- `listOAuthAuthorizationContexts`. -/
def listOAuthAuthorizationContexts (application : ApplicationAggregate)
    (resources : List (Option ApiResource)) (user : SessionUser) :
    Request (List OAuthAuthorizationContext) := do
  let required := requiredOrganizationIds application resources
  throwIf (1 < required.length) (badRequest
    "The requested Application and Resource Servers do not share one authorization Context.")
  let memberships ← query (·.listUserMemberships user.id)
  let organizations ← Program.mapEach memberships fun membership =>
    query (·.findOrganization membership.organizationId)
  let contexts := contextsOf user (truthy required.head?) organizations
  throwIf (contexts = [])
    (badRequest "No active authorization Context is available for this request.")
  pure contexts

end Realmroot
