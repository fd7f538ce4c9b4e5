import Realmroot.Repos.ExternalResources

/-!
# The authorization repository: members

Organizations, their members and the roles of these. The roles of a member are
stored as one text, joined by commas; the statements look for the owner role in
that text.
-/

namespace Realmroot

/-- `serializeRoles`. -/
def serializeRoles (roles : List String) : String :=
  String.ofList ([','].intercalate ((sortStrings (unique roles)).map String.toList))

/-- `(',' || role || ',') LIKE '%,key,%'`, for a key without wildcards. Letters are
compared without regard to case. -/
def likeRole (key role : String) : Bool :=
  (',' :: key.toList.map Char.toLower ++ [',']) <:+: (',' :: role.toList.map Char.toLower ++ [','])

/-- `{ ...base, ...extra }`. -/
def Record.spread (base extra : Record) : Record :=
  base.map (fun field => (field.1, (extra.lookup field.1).getD field.2)) ++
    extra.filter fun field => (base.lookup field.1).isNone

theorem Record.lookup_spread_base (base extra : Record) (key : String) :
    (base.map fun field => (field.1, (extra.lookup field.1).getD field.2)).lookup key =
      (base.lookup key).map fun value => (extra.lookup key).getD value := by
  induction base with
  | nil => rfl
  | cons field base ih =>
    rw [List.map_cons, List.lookup_cons, List.lookup_cons]
    cases hkey : key == field.1 with
    | true => simp [beq_iff_eq.mp hkey]
    | false => exact ih

theorem Record.lookup_spread_extra (base extra : Record) {key : String}
    (hnone : base.lookup key = none) :
    (extra.filter fun field => (base.lookup field.1).isNone).lookup key = extra.lookup key := by
  induction extra with
  | nil => rfl
  | cons field extra ih =>
    rw [List.filter_cons, List.lookup_cons]
    cases hkey : key == field.1 with
    | true =>
      obtain rfl := beq_iff_eq.mp hkey
      rw [hnone, Option.isNone_none, if_pos rfl, List.lookup_cons, hkey]
    | false =>
      split_ifs
      · rw [List.lookup_cons, hkey]
        exact ih
      · exact ih

/-- A field of a spread record is the one of the extra record, if this has it. -/
theorem Record.field_spread (base extra : Record) (key : String) :
    (base.spread extra).field key = (extra.field key).or (base.field key) := by
  unfold Record.field Record.spread
  rw [List.lookup_append, Record.lookup_spread_base]
  cases hbase : base.lookup key with
  | none =>
    rw [Record.lookup_spread_extra base extra hbase]
    simp
  | some value => cases hextra : extra.lookup key <;> simp

namespace Database

/-! ## Queries -/

section Queries

variable (db : Database)

def findMember (id : String) : Option MemberRecord :=
  (db.members.find? fun row => row.id = id).map Member.toMember

def countMembersByRole (organizationId roleName : String) : ℕ :=
  (db.members.filter fun row =>
    row.organizationId = organizationId && likeRole roleName row.role).length

/-- The keys of `listOrganizationRoles`. -/
def listOrganizationRoleKeys (organizationId : String) : List String :=
  (db.organizationRoles.filter fun row => row.organizationId = organizationId).map (·.role)

/-- The account of the user is deleted. -/
def isDeletedUser (userId : String) : Bool :=
  db.users.any fun row => row.id = userId && row.deletedAt.isSome

/-- Another member of the organization is an owner. -/
def hasOtherOwner (organizationId memberId : String) : Bool :=
  db.members.any fun other =>
    other.organizationId = organizationId && other.id ≠ memberId && likeRole "owner" other.role

/-- The member as it was read. -/
def isMember (organizationId memberId : String) (expectedUpdatedAt : Time) (row : Member) : Bool :=
  row.id = memberId && row.organizationId = organizationId && row.updatedAt = expectedUpdatedAt

/-- The last owner is not selected. -/
def isNotLastOwner (organizationId memberId : String) (row : Member) : Bool :=
  !likeRole "owner" row.role || db.hasOtherOwner organizationId memberId

end Queries

/-! ## Statements -/

/-- `createPasswordResetRequest`. -/
def insertPasswordResetRequest (row : PasswordResetRequest) : Statement Unit := fun db =>
  if db.passwordResetRequests.any fun old => old.id = row.id then
    .error (.constraint "password_reset_request.id")
  else if ¬ (db.users.any fun user => user.id = row.userId) then
    .error (.constraint "password_reset_request.user_id")
  else .ok ((), { db with passwordResetRequests := db.passwordResetRequests ++ [row] })

theorem insertPasswordResetRequest_after (row : PasswordResetRequest) (db : Database) :
    ∃ requests, (insertPasswordResetRequest row).after db =
      { db with passwordResetRequests := requests } := by
  apply Statement.after_keeps
    (p := fun db' => ∃ requests, db' = { db with passwordResetRequests := requests }) ⟨_, rfl⟩
  intro u db' hok
  unfold insertPasswordResetRequest at hok
  split_ifs at hok
  cases hok
  exact ⟨_, rfl⟩

/-- An insert into the member table, with its triggers, indexes and references. -/
def insertMember (row : Member) : Statement Unit := fun db =>
  if db.isDeletedUser row.userId then .error (.constraint "account_deleted")
  else if db.members.any fun old => old.id = row.id then .error (.constraint "member.id")
  else if db.members.any fun old =>
      old.organizationId = row.organizationId && old.userId = row.userId then
    .error (.constraint "member_organizationId_userId_unique")
  else if ¬ (db.users.any fun user => user.id = row.userId) then
    .error (.constraint "member.user_id")
  else if ¬ (db.organizations.any fun organization => organization.id = row.organizationId) then
    .error (.constraint "member.organization_id")
  else .ok ((), { db with members := db.members ++ [row] })

def insertOrganization (row : Organization) : Statement Unit := fun db =>
  if db.organizations.any fun old => old.id = row.id then .error (.constraint "organization.id")
  else if db.organizations.any fun old => old.slug = row.slug then
    .error (.constraint "organization.slug")
  else .ok ((), { db with organizations := db.organizations ++ [row] })

def createOrganization (row : Organization) (owner : Member) : Statement Unit := fun db => do
  let ((), db) ← insertOrganization row db
  insertMember { owner with organizationId := row.id } db

/-- Which member the new roles replace those of. -/
def replacesRoles (organizationId memberId : String) (roles : List String)
    (expectedUpdatedAt : Time) (db : Database) (row : Member) : Bool :=
  isMember organizationId memberId expectedUpdatedAt row &&
    (roles.contains "owner" || db.isNotLastOwner organizationId memberId row)

def replaceMemberRoles (organizationId memberId : String) (roles : List String)
    (expectedUpdatedAt : Time) (audit : AgentAuditEvent) : Statement Bool := fun db =>
  let condition := replacesRoles organizationId memberId roles expectedUpdatedAt db
  let extra : Record :=
    [("organizationId", .str organizationId), ("memberId", .str memberId),
      ("roles", .arr (roles.map .str))]
  let recorded := recordAudit { audit with metadata := audit.metadata.map (·.spread extra) }
    (fun db => db.members.any condition) db
  if db.members.any fun row => condition row && db.isDeletedUser row.userId then
    .error (.constraint "account_deleted")
  else
    .ok (db.members.any condition, { recorded with
      members :=
        Table.updateWhere condition
          (fun row => { row with role := serializeRoles roles, updatedAt := audit.occurredAt })
          recorded.members })

/-- Which member is removed. -/
def removes (organizationId memberId : String) (expectedUpdatedAt : Time) (db : Database)
    (row : Member) : Bool :=
  isMember organizationId memberId expectedUpdatedAt row &&
    db.isNotLastOwner organizationId memberId row

/-- What users lose with their membership: the teams of the organization, the tokens of
its private Applications, and the sessions in it. -/
def withdrawMembership (organizationId : String) (userIds : List String) (now : Time)
    (db : Database) : Database :=
  let clientIds := (db.applications.filter fun row =>
    row.ownerOrganizationId = organizationId && row.visibility = .private).map (·.oauthClientId)
  let teamIds := (db.teams.filter fun row => row.organizationId = organizationId).map (·.id)
  { db with
    teamMembers := db.teamMembers.filter fun row =>
      !(userIds.contains row.userId && teamIds.contains row.teamId)
    oauthRefreshTokens :=
      Table.updateWhere
        (fun row => userIds.contains row.userId && clientIds.contains row.clientId &&
          row.revoked.isNone)
        (fun row => { row with revoked := some now }) db.oauthRefreshTokens
    sessions :=
      Table.updateWhere
        (fun row => userIds.contains row.userId &&
          row.activeOrganizationId = some organizationId)
        (fun row => { row with activeOrganizationId := none, activeTeamId := none }) db.sessions }

def removeMember (organizationId memberId : String) (expectedUpdatedAt : Time)
    (audit : AgentAuditEvent) (now : Time) : Statement Bool := fun db =>
  let condition := removes organizationId memberId expectedUpdatedAt db
  let extra : Record := [("organizationId", .str organizationId), ("memberId", .str memberId)]
  let recorded := recordAudit { audit with metadata := audit.metadata.map (·.spread extra) }
    (fun db => db.members.any condition) db
  let userIds := (db.members.filter condition).map (·.userId)
  let withdrawn := withdrawMembership organizationId userIds now recorded
  .ok (db.members.any condition, { withdrawn with
    members := withdrawn.members.filter fun row => !condition row })

end Database
end Realmroot
