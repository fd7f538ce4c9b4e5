import Realmroot.MembershipCommands
import Realmroot.AccessFrames

/-!
# What the commands on memberships do

The database that each of them leaves, and the tables that none of them writes.
-/

namespace Realmroot

namespace Database

variable {db db' : Database}

theorem recordAudit_eq (audit : AgentAuditEvent) (condition : Database → Bool) :
    recordAudit audit condition db =
      { db with agentAuditEvents :=
          db.agentAuditEvents ++ if condition db then [audit] else [] } := by
  unfold recordAudit
  split_ifs with h <;> simp

/-- A member is inserted for a user whose account is there and not deleted. -/
theorem insertMember_ok {row : Member} (h : insertMember row db = .ok ((), db')) :
    db.isDeletedUser row.userId = false ∧ (∀ old ∈ db.members, old.id ≠ row.id) ∧
      (∃ user ∈ db.users, user.id = row.userId) ∧
        db' = { db with members := db.members ++ [row] } := by
  unfold insertMember at h
  split_ifs at h with hdeleted hid _ huser _
  cases h
  refine ⟨by simpa using hdeleted, by simpa using hid, by simpa using huser, rfl⟩

theorem createOrganization_ok {row : Organization} {owner : Member}
    (h : createOrganization row owner db = .ok ((), db')) :
    db.isDeletedUser owner.userId = false ∧ (∀ old ∈ db.members, old.id ≠ owner.id) ∧
      (∃ user ∈ db.users, user.id = owner.userId) ∧
        db' = { db with
          organizations := db.organizations ++ [row]
          members := db.members ++ [{ owner with organizationId := row.id }] } := by
  obtain ⟨⟨⟨⟩, db₁⟩, hfirst, h⟩ := Statement.bind_ok h
  unfold insertOrganization at hfirst
  split_ifs at hfirst
  cases hfirst
  obtain ⟨hdeleted, hid, huser, rfl⟩ := insertMember_ok h
  exact ⟨hdeleted, hid, huser, rfl⟩

/-- The roles are replaced where the condition holds, and the audit trail says so. -/
theorem replaceMemberRoles_ok {organizationId memberId : String} {roles : List String}
    {expectedUpdatedAt : Time} {audit : AgentAuditEvent} {updated : Bool}
    (h : replaceMemberRoles organizationId memberId roles expectedUpdatedAt audit db =
      .ok (updated, db')) :
    updated = db.members.any (replacesRoles organizationId memberId roles expectedUpdatedAt db) ∧
      ∃ event : AgentAuditEvent, (event.id, event.action) = (audit.id, audit.action) ∧ db' = { db with
        members :=
          Table.updateWhere (replacesRoles organizationId memberId roles expectedUpdatedAt db)
            (fun row => { row with role := serializeRoles roles, updatedAt := audit.occurredAt })
            db.members
        agentAuditEvents := db.agentAuditEvents ++ if updated then [event] else [] } := by
  unfold replaceMemberRoles at h
  dsimp only at h
  split_ifs at h
  rw [recordAudit_eq] at h
  cases h
  refine ⟨rfl, _, ?_, rfl⟩
  rfl

/-- The member is removed where the condition holds, and the audit trail says so. -/
theorem removeMember_ok {organizationId memberId : String} {expectedUpdatedAt now : Time}
    {audit : AgentAuditEvent} {removed : Bool}
    (h : removeMember organizationId memberId expectedUpdatedAt audit now db =
      .ok (removed, db')) :
    removed = db.members.any (removes organizationId memberId expectedUpdatedAt db) ∧
      ∃ (event : AgentAuditEvent) (teamMembers : List TeamMember)
        (oauthRefreshTokens : List OAuthRefreshToken) (sessions : List Session),
        (event.id, event.action) = (audit.id, audit.action) ∧ db' = { db with
          members := db.members.filter fun row =>
            !removes organizationId memberId expectedUpdatedAt db row
          teamMembers := teamMembers, oauthRefreshTokens := oauthRefreshTokens
          sessions := sessions
          agentAuditEvents := db.agentAuditEvents ++ if removed then [event] else [] } := by
  unfold removeMember at h
  dsimp only at h
  rw [recordAudit_eq] at h
  cases h
  refine ⟨rfl, _, _, _, _, ?_, rfl⟩
  rfl

theorem enqueueCleanup_ok {userId : String} {now : Time}
    (h : enqueueCleanup userId now db = .ok ((), db')) :
    (db.isLiveUser userId = true → db.isLastOwner userId = false) ∧
      ∃ cleanups, db' = { db with accountDeletionCleanups := cleanups } := by
  unfold enqueueCleanup at h
  by_cases hlive : db.isLiveUser userId = true
  · simp only [hlive, not_true_eq_false, if_false] at h
    split_ifs at h with hlast _
    · cases h
      exact ⟨fun _ => by simpa using hlast, _, rfl⟩
    · cases h
      exact ⟨fun _ => by simpa using hlast, _, rfl⟩
  · rw [if_pos hlive] at h
    cases h
    exact ⟨fun hl => absurd hl hlive, _, rfl⟩

theorem retireIdentities_ok {userId : String} {now : Time}
    (h : retireIdentities userId now db = .ok ((), db')) :
    ∃ bindings agents hosts identities, db' = { db with
      agentIdentityBindings := bindings, agents := agents, agentHosts := hosts
      agentIdentities := identities } := by
  unfold retireIdentities at h
  dsimp only at h
  split_ifs at h
  cases h
  exact ⟨_, _, _, _, rfl⟩

theorem retireConnections_ok {userId : String} {now : Time}
    (h : retireConnections userId now db = .ok ((), db')) :
    ∃ connections, db' = { db with providerConnections := connections } := by
  unfold retireConnections at h
  split_ifs at h
  cases h
  exact ⟨_, rfl⟩

/-- The members and the user go, and nobody who is the last owner does. -/
theorem eraseAccount_ok {userId : String} {now : Time}
    (h : eraseAccount userId now db = .ok ((), db')) :
    (db.isLiveUser userId = true → db.isLastOwner userId = false) ∧
      db'.organizations = db.organizations ∧ db'.organizationRoles = db.organizationRoles ∧
      db'.members = db.members.filter (fun row => row.userId ≠ userId) ∧
      db'.users = Table.updateWhere (fun row => row.id = userId && row.deletedAt.isNone)
        (fun row => { row with deletedAt := some now, banned := true, email := none }) db.users ∧
      db'.agentAuditEvents.map (fun event => (event.id, event.action)) =
        db.agentAuditEvents.map (fun event => (event.id, event.action)) ∧
      db'.tokenExchangeAccessTokens = db.tokenExchangeAccessTokens ∧
      db'.tokenExchangeRefreshTokens = db.tokenExchangeRefreshTokens := by
  obtain ⟨⟨⟨⟩, db₁⟩, hcleanup, h⟩ := Statement.bind_ok h
  obtain ⟨⟨⟨⟩, db₂⟩, hidentities, h⟩ := Statement.bind_ok h
  obtain ⟨⟨⟨⟩, db₃⟩, hconnections, h⟩ := Statement.bind_ok h
  obtain ⟨hlast, _, rfl⟩ := enqueueCleanup_ok hcleanup
  obtain ⟨_, _, _, _, rfl⟩ := retireIdentities_ok hidentities
  obtain ⟨_, rfl⟩ := retireConnections_ok hconnections
  cases h
  refine ⟨hlast, rfl, rfl, rfl, rfl, ?_, rfl, rfl⟩
  exact Table.map_updateWhere fun _ => rfl

end Database

namespace MembershipCommand

/-- No command on memberships touches the tokens of exchanges. -/
theorem exchangeTokens_after (command : MembershipCommand) (db : Database) :
    SameTables db (command.after db) .exchangeTokens := by
  unfold after
  apply Statement.after_keeps (p := fun db' => SameTables db db' .exchangeTokens)
    (SameTables.refl db _)
  intro answer db' hok
  cases command with
  | createOrganization row owner =>
    obtain ⟨-, -, -, rfl⟩ := Database.createOrganization_ok hok
    exact ⟨rfl, rfl⟩
  | addMember row =>
    obtain ⟨-, -, -, rfl⟩ := Database.insertMember_ok hok
    exact ⟨rfl, rfl⟩
  | replaceMemberRoles organizationId memberId roles expectedUpdatedAt audit =>
    obtain ⟨-, -, -, rfl⟩ := Database.replaceMemberRoles_ok hok
    exact ⟨rfl, rfl⟩
  | removeMember organizationId memberId expectedUpdatedAt audit now =>
    obtain ⟨-, -, -, -, -, -, rfl⟩ := Database.removeMember_ok hok
    exact ⟨rfl, rfl⟩
  | eraseAccount userId now =>
    obtain ⟨-, -, -, -, -, -, haccess, hrefresh⟩ := Database.eraseAccount_ok hok
    exact ⟨haccess, hrefresh⟩

end MembershipCommand
end Realmroot
