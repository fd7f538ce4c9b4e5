import Realmroot.Schema.ExternalResources

/-!
# Tables of the agent schema

The agents of the agent protocol, the hosts on which they are installed, and what is stored of
their enrollment. The columns `status` are free text.
-/

namespace Realmroot

structure AgentHostRecord where
  id : String
  name : Option String
  userId : Option String
  defaultCapabilities : Option String := none
  publicKey : Option String
  kid : Option String
  status : String
  activatedAt : Option Time
  createdAt : Time
  updatedAt : Time
  deriving DecidableEq

/-- An agent of the protocol, on its host. -/
structure AgentRecord where
  id : String
  name : String
  userId : Option String
  hostId : String
  status : String
  mode : String
  publicKey : String
  kid : Option String
  activatedAt : Option Time
  createdAt : Time
  updatedAt : Time
  deriving DecidableEq

/-- What an agent may do on its host's behalf. -/
structure AgentCapabilityGrant where
  id : String
  agentId : String
  capability : String
  deniedBy : Option String
  grantedBy : Option String
  status : String
  createdAt : Time
  updatedAt : Time
  deriving DecidableEq

/-- A device asks that its agent is approved. -/
structure ApprovalRequest where
  id : String
  method : String
  agentId : Option String
  hostId : Option String
  userId : Option String
  status : String
  userCodeHash : Option String
  expiresAt : Time
  createdAt : Time
  updatedAt : Time
  deriving DecidableEq

/-- The identifier of a proof that was presented. -/
structure AgentDpopJti where
  jtiHash : String
  keyThumbprint : String
  expiresAt : Time
  createdAt : Time
  deriving DecidableEq

/-- The agent that an Application created under an idempotency key. -/
structure AgentApplicationCreation where
  id : String
  applicationId : String
  actorUserId : String
  idempotencyKey : String
  requestFingerprint : String
  agentIdentityId : String
  createdAt : Time
  deriving DecidableEq

/-- An enrollment asks for a new identity, or for one that is there already. -/
structure AgentEnrollmentIntent where
  id : String
  agentIdentityId : Option String
  requestedName : Option String
  requestedUsername : Option String
  requestedRuntime : Option String
  ownerUserId : String
  protocolAgentId : String
  idempotencyKey : Option String
  status : String
  createdByUserId : String
  approvedByUserId : Option String
  expiresAt : Time
  approvedAt : Option Time
  createdAt : Time
  updatedAt : Time
  deriving DecidableEq

end Realmroot
