import Realmroot.Repos.AccountDeletion

/-!
# Commands on memberships

The statements and batches on organizations, their members and the accounts behind
these.
-/

namespace Realmroot

inductive MembershipCommand where
  | createOrganization (row : Organization) (owner : Member)
  | addMember (row : Member)
  | replaceMemberRoles (organizationId memberId : String) (roles : List String)
      (expectedUpdatedAt : Time) (audit : AgentAuditEvent)
  | removeMember (organizationId memberId : String) (expectedUpdatedAt : Time)
      (audit : AgentAuditEvent) (now : Time)
  | eraseAccount (userId : String) (now : Time)

namespace MembershipCommand

/-- What a command answers. -/
@[reducible] def Answer : MembershipCommand → Type
  | replaceMemberRoles .. => Bool
  | removeMember .. => Bool
  | _ => Unit

def statement : (command : MembershipCommand) → Statement command.Answer
  | createOrganization row owner => Database.createOrganization row owner
  | addMember row => Database.insertMember row
  | replaceMemberRoles organizationId memberId roles expectedUpdatedAt audit =>
    Database.replaceMemberRoles organizationId memberId roles expectedUpdatedAt audit
  | removeMember organizationId memberId expectedUpdatedAt audit now =>
    Database.removeMember organizationId memberId expectedUpdatedAt audit now
  | eraseAccount userId now => Database.eraseAccount userId now

/-- The database after a command; a refused one changes nothing. -/
def after (command : MembershipCommand) : Database → Database := command.statement.after

end MembershipCommand
end Realmroot
