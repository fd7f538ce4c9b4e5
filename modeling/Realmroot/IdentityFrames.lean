import Realmroot.Repos.AgentIdentities

/-!
# What statements on identities leave alone

When a batch on the identities of agents succeeds, which constraints it passed, and what it
changed.
-/

namespace Realmroot
namespace Database

variable {db db' : Database}

/-! ## Inserts -/

theorem insertAgentHost_ok {row : AgentHostRecord} {u : Unit}
    (h : insertAgentHost row db = .ok (u, db')) :
    db' = { db with agentHosts := db.agentHosts ++ [row] } := by
  obtain ⟨-, -, h⟩ := Statement.bind_ok h
  obtain ⟨-, -, h⟩ := Statement.bind_ok h
  obtain ⟨-, -, h⟩ := Statement.bind_ok h
  cases h
  rfl

theorem insertAgent_ok {row : AgentRecord} {u : Unit} (h : insertAgent row db = .ok (u, db')) :
    db' = { db with agents := db.agents ++ [row] } := by
  obtain ⟨-, -, h⟩ := Statement.bind_ok h
  obtain ⟨-, -, h⟩ := Statement.bind_ok h
  obtain ⟨-, -, h⟩ := Statement.bind_ok h
  obtain ⟨-, -, h⟩ := Statement.bind_ok h
  cases h
  rfl

theorem insertAgentIdentity_ok {row : AgentIdentity} {u : Unit}
    (h : insertAgentIdentity row db = .ok (u, db')) :
    (∀ old ∈ db.agentIdentities, old.id ≠ row.id) ∧
      db' = { db with agentIdentities := db.agentIdentities ++ [row] } := by
  obtain ⟨-, -, h⟩ := Statement.bind_ok h
  obtain ⟨_, hid, h⟩ := Statement.bind_ok h
  obtain ⟨-, -, h⟩ := Statement.bind_ok h
  obtain ⟨-, -, h⟩ := Statement.bind_ok h
  obtain ⟨-, -, h⟩ := Statement.bind_ok h
  cases h
  exact ⟨by simpa using refuseIf_ok.mp hid, rfl⟩

/-- The agent of a new binding is not bound, and the identity of an active one is there and is
not deleted. -/
theorem insertBinding_ok {row : AgentIdentityBinding} {u : Unit}
    (h : insertBinding row db = .ok (u, db')) :
    (row.status = "active" → db.isDeletedIdentity row.agentIdentityId = false) ∧
      (∀ old ∈ db.agentIdentityBindings, old.id ≠ row.id) ∧
      (∀ old ∈ db.agentIdentityBindings, old.protocolAgentId ≠ row.protocolAgentId) ∧
      (∃ identity ∈ db.agentIdentities, identity.id = row.agentIdentityId) ∧
      ∃ hostId, db' = { db with
        agentIdentityBindings := db.agentIdentityBindings ++ [{ row with hostId := hostId }] } := by
  obtain ⟨_, hdeleted, h⟩ := Statement.bind_ok h
  obtain ⟨_, hid, h⟩ := Statement.bind_ok h
  obtain ⟨_, hagent, h⟩ := Statement.bind_ok h
  obtain ⟨_, hidentity, h⟩ := Statement.bind_ok h
  obtain ⟨-, -, h⟩ := Statement.bind_ok h
  cases h
  refine ⟨?_, ?_, ?_, ?_, _, rfl⟩
  · intro hactive
    simpa [hactive] using refuseIf_ok.mp hdeleted
  · simpa using refuseIf_ok.mp hid
  · simpa using refuseIf_ok.mp hagent
  · simpa using refuseIf_ok.mp hidentity

theorem insertAuditEvent_ok {row : AgentAuditEvent} {u : Unit}
    (h : insertAuditEvent row db = .ok (u, db')) :
    db' = { db with agentAuditEvents := db.agentAuditEvents ++ [row] } := by
  cases h
  rfl

theorem insertApplicationCreation_ok {row : AgentApplicationCreation} {u : Unit}
    (h : insertApplicationCreation row db = .ok (u, db')) :
    db.findCreation row.applicationId row.actorUserId row.idempotencyKey = none ∧
      db' = { db with
        agentApplicationCreations := db.agentApplicationCreations ++ [row] } := by
  obtain ⟨-, -, h⟩ := Statement.bind_ok h
  obtain ⟨_, hkey, h⟩ := Statement.bind_ok h
  obtain ⟨-, -, h⟩ := Statement.bind_ok h
  obtain ⟨-, -, h⟩ := Statement.bind_ok h
  obtain ⟨-, -, h⟩ := Statement.bind_ok h
  cases h
  exact ⟨by simpa using refuseIf_ok.mp hkey, rfl⟩

/-! ## Refused inserts -/

/-- The error of a unique index, and a row that stands against the new one. -/
def RunsInto (e : Error) (clash : Prop) : Prop := isUniqueConstraint e = true ∧ clash

/-- A constraint that may stand against a statement does, or what follows is refused. -/
theorem refuseIf_bind_error {α : Type} {name : String} {condition : Bool}
    {next : Unit → Except Error α} {e : Error} (h : (refuseIf name condition >>= next) = .error e) :
    (condition = true ∧ e = .constraint name) ∨ next () = .error e := by
  rcases Statement.bind_error h with h | ⟨⟨⟩, -, h⟩
  · exact Or.inl (refuseIf_error.mp h)
  · exact Or.inr h

/-- A constraint that does not stand against a statement. -/
theorem refuseIf_bind_false {α : Type} {name : String} {condition : Bool}
    {next : Unit → Except Error α} {e : Error} (hfalse : condition = false)
    (h : (refuseIf name condition >>= next) = .error e) : next () = .error e := by
  rcases refuseIf_bind_error h with ⟨htrue, -⟩ | h
  · rw [hfalse] at htrue
    cases htrue
  · exact h

theorem insertAgentHost_error {row : AgentHostRecord} {e : Error}
    (hlive : row.userId.any db.isDeletedUser = false) (huser : row.userId.all db.isUser = true)
    (h : insertAgentHost row db = .error e) :
    RunsInto e (∃ old ∈ db.agentHosts, old.id = row.id) := by
  rcases refuseIf_bind_error (refuseIf_bind_false hlive h) with ⟨hid, rfl⟩ | h
  · exact ⟨by decide, by simpa using hid⟩
  · cases refuseIf_bind_false (by simp [huser]) h

theorem insertAgent_error {row : AgentRecord} {e : Error}
    (hlive : row.userId.any db.isDeletedUser = false) (huser : row.userId.all db.isUser = true)
    (hhost : ∃ host ∈ db.agentHosts, host.id = row.hostId)
    (h : insertAgent row db = .error e) :
    RunsInto e (∃ old ∈ db.agents, old.id = row.id) := by
  rcases refuseIf_bind_error (refuseIf_bind_false hlive h) with ⟨hid, rfl⟩ | h
  · exact ⟨by decide, by simpa using hid⟩
  · have h := refuseIf_bind_false (by simp [huser]) h
    cases refuseIf_bind_false (by simpa using hhost) h

theorem insertAgentIdentity_error {row : AgentIdentity} {e : Error}
    (hlive : db.isDeletedUser row.ownerUserId = false) (huser : db.isUser row.ownerUserId = true)
    (h : insertAgentIdentity row db = .error e) :
    RunsInto e (∃ old ∈ db.agentIdentities, old.id = row.id ∨ old.subject = row.subject ∨
      (row.username.isSome = true ∧ old.username = row.username)) := by
  rcases refuseIf_bind_error (refuseIf_bind_false hlive h) with ⟨hid, rfl⟩ | h
  · obtain ⟨old, hold, hid⟩ := List.any_eq_true.mp hid
    exact ⟨by decide, old, hold, Or.inl (by simpa using hid)⟩
  rcases refuseIf_bind_error h with ⟨hsubject, rfl⟩ | h
  · obtain ⟨old, hold, hsubject⟩ := List.any_eq_true.mp hsubject
    simp only [Bool.and_eq_true, decide_eq_true_eq] at hsubject
    exact ⟨by decide, old, hold, Or.inr (Or.inl hsubject.2)⟩
  rcases refuseIf_bind_error h with ⟨husername, rfl⟩ | h
  · rw [Bool.and_eq_true] at husername
    obtain ⟨old, hold, hsame⟩ := List.any_eq_true.mp husername.2
    exact ⟨by decide, old, hold, Or.inr (Or.inr ⟨husername.1, by simpa using hsame⟩)⟩
  · cases refuseIf_bind_false (by simp [huser]) h

theorem insertBinding_error {row : AgentIdentityBinding} {e : Error}
    (hlive : db.isDeletedIdentity row.agentIdentityId = false)
    (hidentity : ∃ identity ∈ db.agentIdentities, identity.id = row.agentIdentityId)
    (hagent : ∃ agent ∈ db.agents, agent.id = row.protocolAgentId)
    (h : insertBinding row db = .error e) :
    RunsInto e (∃ old ∈ db.agentIdentityBindings,
      old.id = row.id ∨ old.protocolAgentId = row.protocolAgentId) := by
  rcases refuseIf_bind_error (refuseIf_bind_false (by simp [hlive]) h) with ⟨hid, rfl⟩ | h
  · obtain ⟨old, hold, hid⟩ := List.any_eq_true.mp hid
    exact ⟨by decide, old, hold, Or.inl (by simpa using hid)⟩
  rcases refuseIf_bind_error h with ⟨hbound, rfl⟩ | h
  · obtain ⟨old, hold, hbound⟩ := List.any_eq_true.mp hbound
    exact ⟨by decide, old, hold, Or.inr (by simpa using hbound)⟩
  · have h := refuseIf_bind_false (by simpa using hidentity) h
    cases refuseIf_bind_false (by simpa using hagent) h

theorem insertApplicationCreation_error {row : AgentApplicationCreation} {e : Error}
    (huser : db.isUser row.actorUserId = true)
    (hidentity : ∃ identity ∈ db.agentIdentities, identity.id = row.agentIdentityId)
    (h : insertApplicationCreation row db = .error e) :
    RunsInto e ((db.findCreation row.applicationId row.actorUserId row.idempotencyKey).isSome =
        true ∨
      ∃ old ∈ db.agentApplicationCreations,
        old.id = row.id ∨ old.agentIdentityId = row.agentIdentityId) := by
  rcases refuseIf_bind_error h with ⟨hid, rfl⟩ | h
  · obtain ⟨old, hold, hid⟩ := List.any_eq_true.mp hid
    exact ⟨by decide, Or.inr ⟨old, hold, Or.inl (by simpa using hid)⟩⟩
  rcases refuseIf_bind_error h with ⟨hkey, rfl⟩ | h
  · exact ⟨by decide, Or.inl hkey⟩
  rcases refuseIf_bind_error h with ⟨hreserved, rfl⟩ | h
  · obtain ⟨old, hold, hreserved⟩ := List.any_eq_true.mp hreserved
    exact ⟨by decide, Or.inr ⟨old, hold, Or.inr (by simpa using hreserved)⟩⟩
  · have h := refuseIf_bind_false (by simp [huser]) h
    cases refuseIf_bind_false (by simpa using hidentity) h

/-! ## Batches -/

theorem createIdentity_ok {identity : AgentIdentity} {binding : AgentIdentityBinding} {u : Unit}
    (h : createIdentity identity binding db = .ok (u, db')) :
    insertAgentIdentity identity db =
        .ok ((), { db with agentIdentities := db.agentIdentities ++ [identity] }) ∧
      insertBinding binding { db with agentIdentities := db.agentIdentities ++ [identity] } =
        .ok (u, db') := by
  obtain ⟨⟨⟨⟩, db₁⟩, hidentity, hbinding⟩ := Statement.bind_ok h
  obtain ⟨-, rfl⟩ := insertAgentIdentity_ok hidentity
  exact ⟨hidentity, hbinding⟩

/-- The rows of an installation are all inserted. -/
theorem createAgentWithInstallation_ok {input : AgentInstallation} {u : Unit}
    (h : createAgentWithInstallation input db = .ok (u, db')) :
    (∃ inserted, insertAgentIdentity input.identity
        { db with
          agentHosts := db.agentHosts ++ [input.host]
          agents := db.agents ++ [input.protocolAgent] } = .ok ((), inserted)) ∧
      (∃ inserted, insertBinding input.binding
        { db with
          agentHosts := db.agentHosts ++ [input.host]
          agents := db.agents ++ [input.protocolAgent]
          agentIdentities := db.agentIdentities ++ [input.identity] } = .ok ((), inserted)) ∧
      db.findCreation input.reservation.applicationId input.reservation.actorUserId
        input.reservation.idempotencyKey = none ∧
      ∃ hostId, db' = { db with
        agentHosts := db.agentHosts ++ [input.host]
        agents := db.agents ++ [input.protocolAgent]
        agentIdentities := db.agentIdentities ++ [input.identity]
        agentIdentityBindings :=
          db.agentIdentityBindings ++ [{ input.binding with hostId := hostId }]
        agentAuditEvents := db.agentAuditEvents ++ [input.audit]
        agentApplicationCreations := db.agentApplicationCreations ++ [input.reservation] } := by
  obtain ⟨⟨⟨⟩, db₁⟩, hhost, h⟩ := Statement.bind_ok h
  obtain ⟨⟨⟨⟩, db₂⟩, hagent, h⟩ := Statement.bind_ok h
  obtain ⟨⟨⟨⟩, db₃⟩, hidentity, h⟩ := Statement.bind_ok h
  obtain ⟨⟨⟨⟩, db₄⟩, hbinding, h⟩ := Statement.bind_ok h
  obtain ⟨⟨⟨⟩, db₅⟩, haudit, hcreation⟩ := Statement.bind_ok h
  obtain rfl := insertAgentHost_ok hhost
  obtain rfl := insertAgent_ok hagent
  obtain ⟨-, rfl⟩ := insertAgentIdentity_ok hidentity
  obtain ⟨-, -, -, -, hostId, rfl⟩ := insertBinding_ok hbinding
  obtain rfl := insertAuditEvent_ok haudit
  obtain ⟨hkey, rfl⟩ := insertApplicationCreation_ok hcreation
  exact ⟨⟨_, hidentity⟩, ⟨_, hbinding⟩, hkey, hostId, rfl⟩

theorem claimIdentityProfile_ok {id : String} {input : IdentityProfile} {claimed : Bool}
    (h : claimIdentityProfile id input db = .ok (claimed, db')) :
    claimed = db.agentIdentities.any (isUnclaimed id) ∧ db' = { db with
      agentIdentities :=
        Table.updateWhere (isUnclaimed id)
          (fun row => { row with
            username := some input.username, name := input.name, runtime := some input.runtime
            updatedAt := input.updatedAt })
          db.agentIdentities } := by
  obtain ⟨-, -, h⟩ := Statement.bind_ok h
  obtain ⟨-, -, h⟩ := Statement.bind_ok h
  cases h
  exact ⟨rfl, rfl⟩

/-- The identities after an approval or a creation. -/
def withIdentity (db : Database) : Option AgentIdentity → Database
  | some identity => { db with agentIdentities := db.agentIdentities ++ [identity] }
  | none => db

theorem insertNewIdentity_ok {identity : Option AgentIdentity} {u : Unit}
    (h : insertNewIdentity identity db = .ok (u, db')) : db' = db.withIdentity identity := by
  cases identity with
  | none =>
    cases h
    rfl
  | some identity => exact (insertAgentIdentity_ok h).2

theorem approveIntent_ok {input : EnrollmentApproval} {u : Unit}
    (h : approveIntent input db = .ok (u, db')) :
    insertNewIdentity input.identity db = .ok ((), db.withIdentity input.identity) ∧
      (∃ inserted, insertBinding input.binding (db.withIdentity input.identity) =
        .ok ((), inserted)) ∧
      ∃ hostId intents, db' = { db.withIdentity input.identity with
        agentIdentityBindings :=
          db.agentIdentityBindings ++ [{ input.binding with hostId := hostId }]
        agentEnrollmentIntents := intents } := by
  obtain ⟨⟨⟨⟩, db₁⟩, hidentity, h⟩ := Statement.bind_ok h
  obtain ⟨⟨⟨⟩, db₂⟩, hbinding, h⟩ := Statement.bind_ok h
  obtain ⟨-, -, h⟩ := Statement.bind_ok h
  obtain rfl := insertNewIdentity_ok hidentity
  have hsame : (db.withIdentity input.identity).agentIdentityBindings =
      db.agentIdentityBindings := by
    cases input.identity <;> rfl
  obtain ⟨-, -, -, -, hostId, hdb⟩ := insertBinding_ok hbinding
  rw [hsame] at hdb
  subst hdb
  cases h
  exact ⟨hidentity, ⟨_, hbinding⟩, hostId, _, rfl⟩

/-! ## Revocations -/

theorem revokeAgentsWhere_ok {p : AgentRecord → Bool} {now : Time} {u : Unit}
    (h : revokeAgentsWhere p now db = .ok (u, db')) :
    (db.agents.any fun row => p row && row.userId.any db.isDeletedUser) = false ∧ db' = { db with
      agents :=
        Table.updateWhere p (fun row => { row with status := "revoked", updatedAt := now })
          db.agents } := by
  obtain ⟨_, hrefused, h⟩ := Statement.bind_ok h
  cases h
  exact ⟨refuseIf_ok.mp hrefused, rfl⟩

theorem revokeProtocolAgents_ok {identityId : String} {protocolAgentIds : List String}
    {now : Time} {u : Unit} (h : revokeProtocolAgents identityId protocolAgentIds now db =
      .ok (u, db')) :
    db' = { db with
      agentIdentityBindings :=
        Table.updateWhere (fun row => row.agentIdentityId = identityId && row.status = "active")
          (fun row => { row with status := "revoked", revokedAt := some now, updatedAt := now })
          db.agentIdentityBindings
      agents :=
        Table.updateWhere (fun row => protocolAgentIds.contains row.id)
          (fun row => { row with status := "revoked", updatedAt := now }) db.agents
      agentCapabilityGrants :=
        Table.updateWhere (fun row => protocolAgentIds.contains row.agentId)
          (fun row => { row with status := "revoked", updatedAt := now }) db.agentCapabilityGrants
      approvalRequests :=
        Table.updateWhere (fun row => row.agentId.any protocolAgentIds.contains)
          (fun row => { row with status := "revoked", updatedAt := now })
          db.approvalRequests } := by
  obtain ⟨⟨⟨⟩, db₁⟩, hbindings, h⟩ := Statement.bind_ok h
  obtain ⟨⟨⟨⟩, db₂⟩, hagents, h⟩ := Statement.bind_ok h
  obtain ⟨⟨⟨⟩, db₃⟩, hgrants, h⟩ := Statement.bind_ok h
  cases hbindings
  obtain ⟨-, rfl⟩ := revokeAgentsWhere_ok hagents
  cases hgrants
  cases h
  rfl

theorem updateIdentitiesWhere_ok {p : AgentIdentity → Bool} {f : AgentIdentity → AgentIdentity}
    {updated : Bool} (h : updateIdentitiesWhere p f db = .ok (updated, db')) :
    updated = db.agentIdentities.any p ∧
      (db.agentIdentities.any fun row => p row && db.isDeletedUser row.ownerUserId) = false ∧
      db' = { db with agentIdentities := Table.updateWhere p f db.agentIdentities } := by
  obtain ⟨_, hrefused, h⟩ := Statement.bind_ok h
  cases h
  exact ⟨rfl, refuseIf_ok.mp hrefused, rfl⟩

theorem deactivateIdentity_ok {id : String} {revoked : Option (List String)} {now : Time}
    {u : Unit} (h : deactivateIdentity id revoked now db = .ok (u, db')) :
    ∃ bindings agents grants requests, db' = { db with
      agentIdentities :=
        Table.updateWhere (fun row => row.id = id)
          (fun row => { row with status := .inactive, updatedAt := now }) db.agentIdentities
      agentIdentityBindings := bindings, agents := agents, agentCapabilityGrants := grants
      approvalRequests := requests } := by
  obtain ⟨⟨_, db₁⟩, hidentity, h⟩ := Statement.bind_ok h
  obtain ⟨-, -, rfl⟩ := updateIdentitiesWhere_ok hidentity
  cases revoked with
  | some protocolAgentIds =>
    obtain rfl := revokeProtocolAgents_ok h
    exact ⟨_, _, _, _, rfl⟩
  | none =>
    cases h
    exact ⟨_, _, _, _, rfl⟩

theorem deleteIdentity_ok {id : String} {protocolAgentIds : List String} {now : Time} {u : Unit}
    (h : deleteIdentity id protocolAgentIds now db = .ok (u, db')) :
    ∃ bindings agents grants requests, db' = { db with
      agentIdentities :=
        Table.updateWhere (fun row => row.id = id && row.deletedAt.isNone)
          (fun row => { row with
            status := .inactive, deletedAt := some now, updatedAt := now })
          db.agentIdentities
      agentIdentityBindings := bindings, agents := agents, agentCapabilityGrants := grants
      approvalRequests := requests } := by
  obtain ⟨⟨_, db₁⟩, hidentity, h⟩ := Statement.bind_ok h
  obtain ⟨-, -, rfl⟩ := updateIdentitiesWhere_ok hidentity
  obtain rfl := revokeProtocolAgents_ok h
  exact ⟨_, _, _, _, rfl⟩

end Database

namespace IdentityCommand

/-- The tables that a command may change. -/
theorem after_eq (command : IdentityCommand) (db : Database) :
    ∃ hosts agents grants requests identities bindings creations intents events,
      command.after db = { db with
        agentHosts := hosts, agents := agents, agentCapabilityGrants := grants
        approvalRequests := requests, agentIdentities := identities
        agentIdentityBindings := bindings, agentApplicationCreations := creations
        agentEnrollmentIntents := intents, agentAuditEvents := events } := by
  unfold after
  apply Statement.after_keeps (p := fun db' =>
    ∃ hosts agents grants requests identities bindings creations intents events,
      db' = { db with
        agentHosts := hosts, agents := agents, agentCapabilityGrants := grants
        approvalRequests := requests, agentIdentities := identities
        agentIdentityBindings := bindings, agentApplicationCreations := creations
        agentEnrollmentIntents := intents, agentAuditEvents := events })
    ⟨_, _, _, _, _, _, _, _, _, rfl⟩
  intro answer db' hok
  cases command with
  | checkInstallation =>
    cases hok
    exact ⟨_, _, _, _, _, _, _, _, _, rfl⟩
  | createIdentity identity binding =>
    obtain ⟨-, hbinding⟩ := Database.createIdentity_ok hok
    obtain ⟨-, -, -, -, _, rfl⟩ := Database.insertBinding_ok hbinding
    exact ⟨_, _, _, _, _, _, _, _, _, rfl⟩
  | createAgentWithInstallation input =>
    obtain ⟨-, -, -, _, rfl⟩ := Database.createAgentWithInstallation_ok hok
    exact ⟨_, _, _, _, _, _, _, _, _, rfl⟩
  | reserveApplicationCreation reservation =>
    obtain ⟨-, rfl⟩ := Database.insertApplicationCreation_ok hok
    exact ⟨_, _, _, _, _, _, _, _, _, rfl⟩
  | claimIdentityProfile id input =>
    obtain ⟨-, rfl⟩ := Database.claimIdentityProfile_ok hok
    exact ⟨_, _, _, _, _, _, _, _, _, rfl⟩
  | createIntent row =>
    simp only [statement, Database.insertEnrollmentIntent] at hok
    split_ifs at hok
    · cases hok
      exact ⟨_, _, _, _, _, _, _, _, _, rfl⟩
    · cases hok
      exact ⟨_, _, _, _, _, _, _, _, _, rfl⟩
  | approveIntent input =>
    obtain ⟨-, -, _, _, rfl⟩ := Database.approveIntent_ok hok
    cases input.identity <;> exact ⟨_, _, _, _, _, _, _, _, _, rfl⟩
  | revokeProtocolAgents identityId protocolAgentIds now =>
    obtain rfl := Database.revokeProtocolAgents_ok hok
    exact ⟨_, _, _, _, _, _, _, _, _, rfl⟩
  | deactivateIdentity id revoked now =>
    obtain ⟨_, _, _, _, rfl⟩ := Database.deactivateIdentity_ok hok
    exact ⟨_, _, _, _, _, _, _, _, _, rfl⟩
  | activateIdentity id now =>
    obtain ⟨-, -, rfl⟩ := Database.updateIdentitiesWhere_ok hok
    exact ⟨_, _, _, _, _, _, _, _, _, rfl⟩
  | deleteIdentity id protocolAgentIds now =>
    obtain ⟨_, _, _, _, rfl⟩ := Database.deleteIdentity_ok hok
    exact ⟨_, _, _, _, _, _, _, _, _, rfl⟩
  | appendAudit event =>
    obtain rfl := Database.insertAuditEvent_ok hok
    exact ⟨_, _, _, _, _, _, _, _, _, rfl⟩

end IdentityCommand
end Realmroot
