import Realmroot.Repos.Configuration

/-!
# The authorization repository: roles and invitations

A role is deleted where nobody holds it: no member of its organization, and no invitation that is
pending there.
-/

namespace Realmroot

/-- `pattern` is the beginning of `text` under `LIKE`, where an underscore stands for any
character. -/
def likePrefix : List Char → List Char → Bool
  | [], _ => true
  | _ :: _, [] => false
  | p :: ps, c :: cs => (p = '_' || p.toLower = c.toLower) && likePrefix ps cs

/-- `(',' || role || ',') LIKE '%,key,%'`, for a key without percent signs. -/
def likeRoleKey (key role : String) : Bool :=
  (',' :: role.toList ++ [',']).tails.any (likePrefix (',' :: key.toList ++ [',']))

example : likeRoleKey "a_b" "a-b,member" = true := by decide

namespace Database

/-- A member of the organization holds the role. -/
def assignedMember (organizationId roleKey : String) (db : Database) : Bool :=
  db.members.any fun row => row.organizationId = organizationId && likeRoleKey roleKey row.role

/-- A pending invitation to the organization names the role. -/
def assignedInvitation (organizationId roleKey : String) (db : Database) : Bool :=
  db.invitations.any fun row =>
    row.organizationId = organizationId && row.status = "pending" && likeRoleKey roleKey row.role

/-- Which role is deleted. -/
def deletesRole (organizationId roleKey : String) (expectedUpdatedAt : Time) (db : Database)
    (row : OrganizationRole) : Bool :=
  isRole organizationId roleKey expectedUpdatedAt row &&
    !db.assignedMember organizationId roleKey && !db.assignedInvitation organizationId roleKey

/-- The batch of `deleteOrganizationRole`. -/
def deleteOrganizationRole (organizationId roleKey : String) (expectedUpdatedAt : Time)
    (audit : AgentAuditEvent) : Statement Bool := fun db =>
  let condition := deletesRole organizationId roleKey expectedUpdatedAt db
  let extra : Record := [("organizationId", .str organizationId), ("roleKey", .str roleKey)]
  let recorded := recordAudit { audit with metadata := audit.metadata.map (·.spread extra) }
    (fun db => db.organizationRoles.any condition) db
  .ok (db.organizationRoles.any condition, { recorded with
    organizationRoles := recorded.organizationRoles.filter fun row => !condition row })

/-- An insert into the invitation table. -/
def insertInvitation (row : Invitation) : Statement Unit := fun db =>
  if db.invitations.any fun old => old.id = row.id then .error (.constraint "invitation.id")
  else if ¬ (db.organizations.any fun organization => organization.id = row.organizationId) then
    .error (.constraint "invitation.organization_id")
  else if ¬ (row.inviterId.all fun inviter => db.users.any fun user => user.id = inviter) then
    .error (.constraint "invitation.inviter_id")
  else .ok ((), { db with invitations := db.invitations ++ [row] })

end Database

/-! ## Commands -/

inductive RoleCommand where
  | createRole (row : OrganizationRole) (audit : AgentAuditEvent)
  | deleteRole (organizationId roleKey : String) (expectedUpdatedAt : Time)
      (audit : AgentAuditEvent)
  | createInvitation (row : Invitation)

namespace RoleCommand

/-- What a command answers. -/
@[reducible] def Answer : RoleCommand → Type
  | deleteRole .. => Bool
  | _ => Unit

def statement : (command : RoleCommand) → Statement command.Answer
  | createRole row audit => Database.createOrganizationRole row audit
  | deleteRole organizationId roleKey expectedUpdatedAt audit =>
    Database.deleteOrganizationRole organizationId roleKey expectedUpdatedAt audit
  | createInvitation row => Database.insertInvitation row

/-- The database after a command; a refused one changes nothing. -/
def after (command : RoleCommand) : Database → Database := command.statement.after

end RoleCommand

namespace Database

variable {db db' : Database}

theorem createOrganizationRole_ok {row : OrganizationRole} {audit : AgentAuditEvent}
    (h : createOrganizationRole row audit db = .ok ((), db')) :
    (∀ old ∈ db.organizationRoles,
        ¬ (old.organizationId = row.organizationId ∧ old.role = row.role)) ∧
      db' = { db with
        organizationRoles := db.organizationRoles ++ [row]
        agentAuditEvents := db.agentAuditEvents ++ [audit] } := by
  unfold createOrganizationRole at h
  split_ifs at h with hexists
  cases h
  refine ⟨?_, rfl⟩
  intro old hold hsame
  exact hexists (List.any_eq_true.mpr ⟨old, hold, by simp [hsame.1, hsame.2]⟩)

/-- The role is deleted where the condition holds, and the audit trail says so. -/
theorem deleteOrganizationRole_ok {organizationId roleKey : String} {expectedUpdatedAt : Time}
    {audit : AgentAuditEvent} {deleted : Bool}
    (h : deleteOrganizationRole organizationId roleKey expectedUpdatedAt audit db =
      .ok (deleted, db')) :
    ∃ events, db' = { db with
      organizationRoles := db.organizationRoles.filter fun row =>
        !deletesRole organizationId roleKey expectedUpdatedAt db row
      agentAuditEvents := events } := by
  unfold deleteOrganizationRole recordAudit at h
  dsimp only at h
  split_ifs at h
  · cases h
    exact ⟨_, rfl⟩
  · cases h
    exact ⟨_, rfl⟩

theorem insertInvitation_ok {row : Invitation} (h : insertInvitation row db = .ok ((), db')) :
    db' = { db with invitations := db.invitations ++ [row] } := by
  unfold insertInvitation at h
  split_ifs at h
  cases h
  rfl

end Database

namespace RoleCommand

/-- The tables that a command may change. -/
theorem after_eq (command : RoleCommand) (db : Database) :
    ∃ roles invitations events, command.after db = { db with
      organizationRoles := roles, invitations := invitations, agentAuditEvents := events } := by
  unfold after
  apply Statement.after_keeps (p := fun db' => ∃ roles invitations events, db' = { db with
      organizationRoles := roles, invitations := invitations, agentAuditEvents := events })
    ⟨_, _, _, rfl⟩
  intro answer db' hok
  cases command with
  | createRole row audit =>
    obtain ⟨-, rfl⟩ := Database.createOrganizationRole_ok hok
    exact ⟨_, _, _, rfl⟩
  | deleteRole organizationId roleKey expectedUpdatedAt audit =>
    obtain ⟨_, rfl⟩ := Database.deleteOrganizationRole_ok hok
    exact ⟨_, _, _, rfl⟩
  | createInvitation row =>
    obtain rfl := Database.insertInvitation_ok hok
    exact ⟨_, _, _, rfl⟩

end RoleCommand
end Realmroot
