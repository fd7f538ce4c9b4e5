import Realmroot.Usecases.AgentIdentities

/-!
# Approval of devices

A user decides about an agent with the code that the device shows. The use case says in the audit
trail whose decision it is; the repository reads the request, the agent, its host and the grants
that are pending, checks that no other user controls them, and decides in one batch. A revocation
is a sequence of updates, each of which executes by itself.
-/

namespace Realmroot

open AtomicProgram Error

/-- The input of `decideAgentApproval`. -/
structure AgentDecision where
  agentId : String
  userCode : String
  action : ApprovalAction
  capabilities : Option (List String)
  deriving DecidableEq

/-- The input of the repository's `decideApproval`. -/
structure ApprovalInput where
  agentId : String
  userCodeHash : String
  action : ApprovalAction
  capabilities : Option (List String)
  userId : String
  now : Time

/-- The host of a request; an empty identifier counts as none. -/
def ApprovalRequest.host? (request : ApprovalRequest) : Option String :=
  request.hostId.filter (· ≠ "")

/-- Somebody else is known to be the controller. -/
def controlledByAnother (controller : Option String) (userId : String) : Bool :=
  controller.any fun id => id ≠ "" && id ≠ userId

/-- A letter or a digit, in the sense of `[A-Z0-9]` regardless of case. -/
def isCodeCharacter (c : Char) : Bool := c.isAlpha || c.isDigit

section Records

variable [Platform]

/-- The code as it was shown, however it was typed. -/
def normalizeUserCode (userCode : String) : String :=
  let stripped :=
    (Platform.toUpperCase (String.ofList (userCode.toList.filter isCodeCharacter))).toList
  if stripped.length = 8 then
    String.ofList (stripped.take 4) ++ "-" ++ String.ofList (stripped.drop 4)
  else Platform.toUpperCase userCode

/-- `hashAgentUserCode`. -/
def hashAgentUserCode (userCode : String) : String :=
  Platform.sha256 (normalizeUserCode userCode)

/-- The tenant of a decision: the owner of the identity, the controller, or the user who
decides. -/
def decisionTenant (identity : Option AgentIdentity) (protocolAgent : Option AgentRecord)
    (userId : String) : String :=
  match identity with
  | some identity => identity.ownerUserId
  | none => ((protocolAgent.bind (·.userId)).filter (· ≠ "")).getD userId

/-- `agentGovernanceAuditRecord`, of a decision. -/
def agentDecisionAudit (id : String) (action : ApprovalAction) (capabilities : List String)
    (identity : Option AgentIdentity) (protocolAgent : Option AgentRecord) (userId : String)
    (occurredAt : Time) : AgentAuditEvent :=
  { id := id
    action :=
      if capabilities ≠ [] then "agent.capability_decided" else "agent.enrollment_decided"
    result := if action = .approve then "allowed" else "denied"
    realmOwned := false
    ownerUserId := some (decisionTenant identity protocolAgent userId)
    ownerOrganizationId := none, controllerUserId := some userId
    subjectIssuer := identity.map (·.issuer), subject := identity.map (·.subject)
    agentIdentityId := identity.map (·.id), hostId := protocolAgent.map (·.hostId)
    resourceId := none, resourceConnectionId := none, accessRequestId := none
    scopes := some capabilities, reasonCode := none, metadata := none, occurredAt := occurredAt }

end Records

section Repository

/-- What the repository makes of the rows that it has read. -/
def approvalDecision (input : ApprovalInput) (audit : AgentAuditEvent) (request : ApprovalRequest)
    (currentAgent : AgentRecord) (host : Option AgentHostRecord)
    (pendingGrants : List AgentCapabilityGrant) : ApprovalDecision :=
  { action := input.action, requestId := request.id, hostId := request.host?
    agentId := input.agentId, userId := input.userId, now := input.now
    pendingGrants := pendingGrants.map fun grant => (grant.id, grant.capability)
    approvedCapabilities := input.capabilities.getD (pendingGrants.map (·.capability))
    agentPending := currentAgent.status = "pending"
    hostPending := host.any fun row => row.status = "pending"
    audit := audit }

def approvalNotPending : Error :=
  badRequest "Agent approval is invalid, expired, or no longer pending."

/-- `decideApproval` of the repository; it answers the new status of the request. -/
def decideApproval (input : ApprovalInput) (audit : AgentAuditEvent) : Request String := do
  let found ← query (·.findApprovalRequest input.agentId input.userCodeHash input.now)
  let request ← orThrow approvalNotPending found
  let found ← query (·.findProtocolAgent input.agentId)
  let host ← query fun db => request.host?.bind fun id => db.agentHosts.find? fun row => row.id = id
  let pendingGrants ← query fun db =>
    (db.listCapabilityGrantsForAgent input.agentId).filter fun row => row.status = "pending"
  let currentAgent ← orThrow (notFound "Agent was not found.") found
  throwIf (controlledByAnother currentAgent.userId input.userId = true)
    (forbidden "Agent approval belongs to another controller.")
  throwIf (controlledByAnother (host.bind (·.userId)) input.userId = true)
    (forbidden "Agent host belongs to another controller.")
  let decision := approvalDecision input audit request currentAgent host pendingGrants
  throwIf (∃ capability ∈ decision.approvedCapabilities,
      ∀ grant ∈ pendingGrants, grant.capability ≠ capability)
    (badRequest "Agent approval includes a capability that is not pending.")
  let decided ← executeApproval (.decideApproval decision)
  throwIf (decided = false) approvalNotPending
  .pure decision.requestStatus

/-! ## Revocations -/

/-- An update at the time at which it is made. -/
def revokeNow (command : Time → ApprovalCommand) : Request Unit := do
  let now ← currentTime
  (executeApproval (command now)).discard

/-- The three updates that revoke an agent. -/
def revokeProtocolAgent (agentId : String) : Request Unit := do
  revokeNow (.revokeAgentRecord agentId)
  revokeNow (.revokeAgentCapabilityGrants agentId)
  revokeNow (.revokeAgentApprovalRequests agentId)

def revokeAgentForUser (agentId userId : String) : Request Unit := do
  let found ← query fun db =>
    db.agents.find? fun row => row.id = agentId && row.userId = some userId
  let _ ← orThrow (notFound "Agent was not found.") found
  revokeProtocolAgent agentId

def revokeAgent (agentId : String) : Request Unit := do
  let found ← query (·.findProtocolAgent agentId)
  let _ ← orThrow (notFound "Agent was not found.") found
  revokeProtocolAgent agentId

/-- The host first, then its agents, their grants and requests, and its own requests. -/
def revokeHost (hostId : String) : Request Unit := do
  let found ← query fun db => db.agentHosts.find? fun row => row.id = hostId
  let _ ← orThrow (notFound "Agent host was not found.") found
  revokeNow (.revokeHostRecord hostId)
  let hostAgents ← query fun db =>
    (db.agents.filter fun row => row.hostId = hostId).map (·.id)
  Program.forEach hostAgents fun id => revokeNow (.revokeAgentRecord id)
  Program.forEach hostAgents fun id => revokeNow (.revokeAgentCapabilityGrants id)
  Program.forEach hostAgents fun id => revokeNow (.revokeAgentApprovalRequests id)
  revokeNow (.revokeHostApprovalRequests hostId)

end Repository

section Programs

variable [Platform]

/-- `decideAgentApproval`. -/
def decideAgentApproval (input : AgentDecision) (userId : String) : Request String := do
  let grants ← query (·.listCapabilityGrantsForAgent input.agentId)
  let pendingCapabilities :=
    (grants.filter fun grant => grant.status = "pending").map (·.capability)
  let capabilities :=
    match input.action with
    | .deny => pendingCapabilities
    | .approve => input.capabilities.getD pendingCapabilities
  let identity ← findActiveByProtocolAgent input.agentId
  let protocolAgent ← query (·.findProtocolAgent input.agentId)
  let now ← currentTime
  let auditId ← generateId
  let occurredAt ← currentTime
  decideApproval
    { agentId := input.agentId, userCodeHash := hashAgentUserCode input.userCode
      action := input.action, capabilities := input.capabilities, userId := userId, now := now }
    (agentDecisionAudit auditId input.action capabilities (identity.map (·.identity)) protocolAgent
      userId occurredAt)

end Programs

end Realmroot
