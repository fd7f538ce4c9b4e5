import Realmroot.IdentityFrames

/-!
# The agent repository

The requests of devices that their agents be approved. The batch that decides a request says in
the audit trail and in the request what was decided, where the request is pending and the agent
and its host have no other controller; it changes the agent, its host and its grants wherever
these are pending.
-/

namespace Realmroot

inductive ApprovalAction where
  | approve
  | deny
  deriving DecidableEq

/-- The batch of `decideApproval`: what the repository has read, and what it makes of it. -/
structure ApprovalDecision where
  action : ApprovalAction
  requestId : String
  hostId : Option String
  agentId : String
  userId : String
  now : Time
  /-- The identifiers and capabilities of the grants that were pending. -/
  pendingGrants : List (String × String)
  approvedCapabilities : List String
  /-- The agent was pending. -/
  agentPending : Bool
  /-- The host was pending. -/
  hostPending : Bool
  audit : AgentAuditEvent

namespace ApprovalDecision

variable (input : ApprovalDecision)

/-- `controllerClaim`. -/
def claims (db : Database) : Bool :=
  (db.agents.any fun row => row.id = input.agentId && row.userId.all (· = input.userId)) &&
    input.hostId.all fun hostId =>
      db.agentHosts.any fun row => row.id = hostId && row.userId.all (· = input.userId)

/-- The request is decided where this holds. -/
def decides (db : Database) (row : ApprovalRequest) : Bool :=
  row.id = input.requestId && row.status = "pending" && input.claims db

/-- The status that a request, a grant, and an agent get. -/
def requestStatus : String :=
  match input.action with
  | .approve => "approved"
  | .deny => "denied"

/-- A grant that was pending, and still is. -/
def decidesGrant (row : AgentCapabilityGrant) : Bool :=
  row.status = "pending" &&
    match input.action with
    | .approve => input.pendingGrants.any fun grant => grant.1 = row.id
    | .deny => input.pendingGrants ≠ [] && row.agentId = input.agentId

/-- The grant is active when its capability is approved, and denied when it is not. -/
def decideGrant (row : AgentCapabilityGrant) : AgentCapabilityGrant :=
  if input.action = .approve ∧
      (input.pendingGrants.find? fun grant => grant.1 = row.id).any
        fun grant => input.approvedCapabilities.contains grant.2 then
    { row with status := "active", grantedBy := some input.userId, updatedAt := input.now }
  else { row with status := "denied", deniedBy := some input.userId, updatedAt := input.now }

def decidesAgent (row : AgentRecord) : Bool :=
  input.agentPending && row.id = input.agentId && row.status = "pending"

def decideAgent (row : AgentRecord) : AgentRecord :=
  match input.action with
  | .approve =>
    { row with
      status := "active", userId := some input.userId, activatedAt := some input.now
      updatedAt := input.now }
  | .deny =>
    { row with status := "rejected", userId := some input.userId, updatedAt := input.now }

/-- Only an approval changes the host. -/
def decidesHost (row : AgentHostRecord) : Bool :=
  input.action = .approve && input.hostPending && some row.id = input.hostId &&
    row.status = "pending"

def decideHost (row : AgentHostRecord) : AgentHostRecord :=
  { row with
    status := "active", userId := some input.userId, activatedAt := some input.now
    updatedAt := input.now }

end ApprovalDecision

namespace Database

def findApprovalRequest (db : Database) (agentId userCodeHash : String) (now : Time) :
    Option ApprovalRequest :=
  db.approvalRequests.find? fun row =>
    row.agentId = some agentId && row.method = "device_authorization" && row.status = "pending" &&
      row.userCodeHash = some userCodeHash && decide (now < row.expiresAt)

def listCapabilityGrantsForAgent (db : Database) (agentId : String) : List AgentCapabilityGrant :=
  db.agentCapabilityGrants.filter fun row => row.agentId = agentId

/-- The triggers `account_deleted_agent_update` and `account_deleted_agent_host_update` refuse a
controller whose account is deleted. -/
def decideApproval (input : ApprovalDecision) : Statement Bool := fun db => do
  let decided := db.approvalRequests.any (input.decides db)
  refuseIf "agent_audit_event.id"
    (decided && db.agentAuditEvents.any fun event => event.id = input.audit.id)
  refuseIf "account_deleted" (db.isDeletedUser input.userId &&
    (db.agents.any input.decidesAgent || db.agentHosts.any input.decidesHost))
  .ok (decided, { db with
    agentAuditEvents := db.agentAuditEvents ++ if decided then [input.audit] else []
    approvalRequests :=
      Table.updateWhere (input.decides db)
        (fun row => { row with status := input.requestStatus, updatedAt := input.now })
        db.approvalRequests
    agentCapabilityGrants :=
      Table.updateWhere input.decidesGrant input.decideGrant db.agentCapabilityGrants
    agents := Table.updateWhere input.decidesAgent input.decideAgent db.agents
    agentHosts := Table.updateWhere input.decidesHost input.decideHost db.agentHosts })

/-- `revokeAgentRecord`. -/
def revokeAgentRecord (agentId : String) (now : Time) : Statement Unit :=
  revokeAgentsWhere (fun row => row.id = agentId) now

/-- `revokeAgentCapabilityGrants`. -/
def revokeAgentCapabilityGrants (agentId : String) (now : Time) : Statement Unit :=
  revokeCapabilityGrantsWhere (fun row => row.agentId = agentId) now

/-- `revokeAgentApprovalRequests`. -/
def revokeAgentApprovalRequests (agentId : String) (now : Time) : Statement Unit :=
  revokeApprovalRequestsWhere (fun row => row.agentId = some agentId) now

/-- `revokeHostApprovalRequests`. -/
def revokeHostApprovalRequests (hostId : String) (now : Time) : Statement Unit :=
  revokeApprovalRequestsWhere (fun row => row.hostId = some hostId) now

/-- The first update of `revokeHost`. -/
def revokeHostRecord (hostId : String) (now : Time) : Statement Unit := fun db => do
  refuseIf "account_deleted"
    (db.agentHosts.any fun row => row.id = hostId && row.userId.any db.isDeletedUser)
  .ok ((), { db with
    agentHosts :=
      Table.updateWhere (fun row => row.id = hostId)
        (fun row => { row with status := "revoked", updatedAt := now }) db.agentHosts })

def insertApprovalRequest (row : ApprovalRequest) : Statement Unit := fun db => do
  refuseIf "approval_request.id" (db.approvalRequests.any fun old => old.id = row.id)
  refuseIf "approval_request.user_id" (!row.userId.all db.isUser)
  .ok ((), { db with approvalRequests := db.approvalRequests ++ [row] })

variable {db db' : Database}

/-- What a decision changes when the database does not refuse it. -/
theorem decideApproval_ok {input : ApprovalDecision} {decided : Bool}
    (h : decideApproval input db = .ok (decided, db')) :
    decided = db.approvalRequests.any (input.decides db) ∧
      (decided = true → ∀ event ∈ db.agentAuditEvents, event.id ≠ input.audit.id) ∧
      db' = { db with
        agentAuditEvents := db.agentAuditEvents ++ if decided then [input.audit] else []
        approvalRequests :=
          Table.updateWhere (input.decides db)
            (fun row => { row with status := input.requestStatus, updatedAt := input.now })
            db.approvalRequests
        agentCapabilityGrants :=
          Table.updateWhere input.decidesGrant input.decideGrant db.agentCapabilityGrants
        agents := Table.updateWhere input.decidesAgent input.decideAgent db.agents
        agentHosts := Table.updateWhere input.decidesHost input.decideHost db.agentHosts } := by
  obtain ⟨_, haudit, h⟩ := Statement.bind_ok h
  obtain ⟨-, -, h⟩ := Statement.bind_ok h
  cases h
  refine ⟨rfl, ?_, rfl⟩
  intro hdecided event hevent hid
  have hfalse := refuseIf_ok.mp haudit
  rw [hdecided, Bool.true_and, List.any_eq_false] at hfalse
  exact hfalse event hevent (by simpa using hid)

theorem insertApprovalRequest_ok {row : ApprovalRequest} {u : Unit}
    (h : insertApprovalRequest row db = .ok (u, db')) :
    db' = { db with approvalRequests := db.approvalRequests ++ [row] } := by
  obtain ⟨-, -, h⟩ := Statement.bind_ok h
  obtain ⟨-, -, h⟩ := Statement.bind_ok h
  cases h
  rfl

theorem revokeHostRecord_ok {hostId : String} {now : Time} {u : Unit}
    (h : revokeHostRecord hostId now db = .ok (u, db')) :
    db' = { db with
      agentHosts :=
        Table.updateWhere (fun row => row.id = hostId)
          (fun row => { row with status := "revoked", updatedAt := now }) db.agentHosts } := by
  obtain ⟨-, -, h⟩ := Statement.bind_ok h
  cases h
  rfl

end Database

/-! ## Commands -/

inductive ApprovalCommand where
  | createApprovalRequest (row : ApprovalRequest)
  | decideApproval (input : ApprovalDecision)
  | revokeAgentRecord (agentId : String) (now : Time)
  | revokeAgentCapabilityGrants (agentId : String) (now : Time)
  | revokeAgentApprovalRequests (agentId : String) (now : Time)
  | revokeHostRecord (hostId : String) (now : Time)
  | revokeHostApprovalRequests (hostId : String) (now : Time)

namespace ApprovalCommand

/-- What a command answers. -/
@[reducible] def Answer : ApprovalCommand → Type
  | decideApproval _ => Bool
  | _ => Unit

def statement : (command : ApprovalCommand) → Statement command.Answer
  | createApprovalRequest row => Database.insertApprovalRequest row
  | decideApproval input => Database.decideApproval input
  | revokeAgentRecord agentId now => Database.revokeAgentRecord agentId now
  | revokeAgentCapabilityGrants agentId now => Database.revokeAgentCapabilityGrants agentId now
  | revokeAgentApprovalRequests agentId now => Database.revokeAgentApprovalRequests agentId now
  | revokeHostRecord hostId now => Database.revokeHostRecord hostId now
  | revokeHostApprovalRequests hostId now => Database.revokeHostApprovalRequests hostId now

def after (command : ApprovalCommand) : Database → Database := command.statement.after

/-- The tables that a command may change. -/
theorem after_eq (command : ApprovalCommand) (db : Database) :
    ∃ events requests grants agents hosts, command.after db = { db with
      agentAuditEvents := events, approvalRequests := requests, agentCapabilityGrants := grants
      agents := agents, agentHosts := hosts } := by
  unfold after
  apply Statement.after_keeps (p := fun db' => ∃ events requests grants agents hosts,
    db' = { db with
      agentAuditEvents := events, approvalRequests := requests, agentCapabilityGrants := grants
      agents := agents, agentHosts := hosts }) ⟨_, _, _, _, _, rfl⟩
  intro answer db' hok
  cases command with
  | createApprovalRequest row =>
    obtain rfl := Database.insertApprovalRequest_ok hok
    exact ⟨_, _, _, _, _, rfl⟩
  | decideApproval input =>
    obtain ⟨-, -, rfl⟩ := Database.decideApproval_ok hok
    exact ⟨_, _, _, _, _, rfl⟩
  | revokeAgentRecord agentId now =>
    obtain ⟨-, rfl⟩ := Database.revokeAgentsWhere_ok hok
    exact ⟨_, _, _, _, _, rfl⟩
  | revokeAgentCapabilityGrants agentId now =>
    cases hok
    exact ⟨_, _, _, _, _, rfl⟩
  | revokeAgentApprovalRequests agentId now =>
    cases hok
    exact ⟨_, _, _, _, _, rfl⟩
  | revokeHostRecord hostId now =>
    obtain rfl := Database.revokeHostRecord_ok hok
    exact ⟨_, _, _, _, _, rfl⟩
  | revokeHostApprovalRequests hostId now =>
    cases hok
    exact ⟨_, _, _, _, _, rfl⟩

end ApprovalCommand

end Realmroot
