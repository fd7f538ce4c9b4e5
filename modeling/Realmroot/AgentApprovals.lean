import Realmroot.Library.Committed
import Realmroot.Library.Promises
import Realmroot.Rules
import Realmroot.Usecases.Agents

/-!
# Approvals in interleavings

Any number of decisions about requests that share agents and hosts are in progress. As long as a
decision that no longer gets its request changes nothing else either, a decision is all or nothing,
it is audited once, and an agent and its host have one controller.
-/

namespace Realmroot

open AtomicProgram Program Pool

/-! ## The system -/

structure DecisionCall where
  input : AgentDecision
  userId : String
  deriving DecidableEq

inductive ApprovalEvent where
  | elapse (milliseconds : ℕ)
  /-- The tables that no decision changes change in any way. -/
  | configure (db : Database)

/-- The tables that `configure` keeps. -/
def keepApprovals (kept db : Database) : Database :=
  { db with
    agents := kept.agents, agentHosts := kept.agentHosts
    agentCapabilityGrants := kept.agentCapabilityGrants
    approvalRequests := kept.approvalRequests, agentAuditEvents := kept.agentAuditEvents }

def approvalSystem [Platform] :
    System Command World Reply Error String DecisionCall ApprovalEvent where
  program call := decideAgentApproval call.input call.userId
  environment
    | .elapse milliseconds, w => { w with clock := w.clock + milliseconds }
    | .configure db, w => { w with db := keepApprovals w.db db }

abbrev DecisionAction := Action Reply DecisionCall ApprovalEvent

/-! ## What a decision is -/

/-- The batch of a decision. -/
def Command.decision? : Command → Option ApprovalDecision
  | .agentApproval (.decideApproval input) => some input
  | _ => none

/-- The batch changes the request. -/
def ApprovalDecision.gets (input : ApprovalDecision) (db : Database) : Bool :=
  db.approvalRequests.any (input.decides db)

/-- No agent, no host and no grant is left for the batch to change. -/
def ApprovalDecision.isIdle (input : ApprovalDecision) (db : Database) : Bool :=
  !db.agents.any input.decidesAgent && !db.agentHosts.any input.decidesHost &&
    !db.agentCapabilityGrants.any input.decidesGrant

/-- A decision executes where it gets its request, or where it changes nothing. -/
def DecidesInTime (command : Command) (w : World) : Prop :=
  ∀ input ∈ command.decision?, input.gets w.db = true ∨ input.isIdle w.db = true

instance (command : Command) (w : World) : Decidable (DecidesInTime command w) :=
  inferInstanceAs (Decidable (∀ input ∈ command.decision?, _))

namespace Database

/-- The agents, the hosts and the grants are the same. -/
structure SameAuthority (db db' : Database) : Prop where
  agents : db'.agents = db.agents
  hosts : db'.agentHosts = db.agentHosts
  grants : db'.agentCapabilityGrants = db.agentCapabilityGrants

/-- A request that was pending is approved. -/
def Approves (db db' : Database) : Prop :=
  ∃ row ∈ db.approvalRequests, row.status = "pending" ∧
    ∃ approved ∈ db'.approvalRequests, approved.id = row.id ∧ approved.status = "approved"

/-- What becomes active does so for the user who changes a request from pending. -/
structure ActivatesFor (userId : String) (db db' : Database) : Prop where
  agents : ∀ row ∈ db'.agents, row ∉ db.agents → row.status = "active" →
    db.Approves db' ∧ row.userId = some userId
  hosts : ∀ row ∈ db'.agentHosts, row ∉ db.agentHosts → row.status = "active" →
    db.Approves db' ∧ row.userId = some userId
  grants : ∀ row ∈ db'.agentCapabilityGrants, row ∉ db.agentCapabilityGrants →
    row.status = "active" → db.Approves db' ∧ row.grantedBy = some userId

/-- An agent and the host with which it was approved have no two controllers. -/
def OneController (db : Database) : Prop :=
  ∀ request ∈ db.approvalRequests, request.status = "approved" →
    ∀ agent ∈ db.agents, request.agentId = some agent.id →
      ∀ host ∈ db.agentHosts, request.host? = some host.id →
        ∀ userId ∈ agent.userId, ∀ hostUserId ∈ host.userId, userId = hostUserId

/-- What was approved is no longer pending, and has one controller. -/
structure ApprovalsStand (db : Database) : Prop where
  requests : Table.Keyed (·.id) db.approvalRequests
  agents : Table.Keyed (·.id) db.agents
  hosts : Table.Keyed (·.id) db.agentHosts
  agentSettled : ∀ request ∈ db.approvalRequests, request.status = "approved" →
    ∀ agent ∈ db.agents, request.agentId = some agent.id → agent.status ≠ "pending"
  hostSettled : ∀ request ∈ db.approvalRequests, request.status = "approved" →
    ∀ host ∈ db.agentHosts, request.host? = some host.id → host.status ≠ "pending"
  oneController : db.OneController

end Database

/-- The batch is accepted, and changes the request. -/
def ApprovalDecision.settles (input : ApprovalDecision) (db : Database) : Bool :=
  (Database.decideApproval input db).toOption.any fun answer => answer.1

/-- The decisions of a history that changed their requests. -/
def decisionsOf (log : List (DecisionCall × Command × World)) : List ApprovalDecision :=
  log.filterMap fun entry =>
    entry.2.1.decision?.filter fun input => input.settles entry.2.2.db

/-- The decisions of a history are the requests that changed, and the events of the trail. -/
structure AuditedOnce (log : List (DecisionCall × Command × World)) (db db' : Database) :
    Prop where
  trail : db'.agentAuditEvents = db.agentAuditEvents ++ (decisionsOf log).map (·.audit)
  once : ((decisionsOf log).map (·.requestId)).Nodup
  decided : ∀ input ∈ decisionsOf log,
    ∃ row ∈ db.approvalRequests, row.id = input.requestId ∧ row.status = "pending" ∧
      ∃ row' ∈ db'.approvalRequests, row'.id = row.id ∧ row'.status = input.requestStatus
  others : ∀ row ∈ db'.approvalRequests,
    row.id ∉ (decisionsOf log).map (·.requestId) → row ∈ db.approvalRequests

/-! ## What a program promises -/

/-- What the repository has read of the request, the agent and the host of a decision. -/
structure ApprovalDecision.Reads (input : ApprovalDecision) (w : World) : Prop where
  request : ∃ row ∈ w.db.approvalRequests, row.id = input.requestId ∧
    row.agentId = some input.agentId ∧ row.host? = input.hostId
  agent : input.agentPending = false →
    ∀ row ∈ w.db.agents, row.id = input.agentId → row.status ≠ "pending"
  host : input.hostPending = false →
    ∀ row ∈ w.db.agentHosts, input.hostId = some row.id → row.status ≠ "pending"

/-- How the others move the state: a request stays with its agent and its host, and nothing
becomes pending again. -/
structure ApprovalsMove (w t : World) : Prop where
  requests : ∀ old ∈ w.db.approvalRequests, ∃ new ∈ t.db.approvalRequests, new.id = old.id ∧
    new.agentId = old.agentId ∧ new.host? = old.host?
  agents : ∀ new ∈ t.db.agents, new.status = "pending" → new ∈ w.db.agents
  hosts : ∀ new ∈ t.db.agentHosts, new.status = "pending" → new ∈ w.db.agentHosts

def approvalPromises : Promises Command World Reply Error String DecisionCall where
  inv w := w.db.ApprovalsStand
  moves := ApprovalsMove
  cond _ := DecidesInTime
  promise call command w :=
    match command with
    | .read => True
    | .generateId => True
    | .agentApproval (.decideApproval input) => input.userId = call.userId ∧ input.Reads w
    | _ => False
  post _ _ _ := True

theorem ApprovalsMove.refl (w : World) : ApprovalsMove w w where
  requests old hold := ⟨old, hold, rfl, rfl, rfl⟩
  agents _ hnew _ := hnew
  hosts _ hnew _ := hnew

theorem ApprovalsMove.trans {w t u : World} (h : ApprovalsMove w t) (h' : ApprovalsMove t u) :
    ApprovalsMove w u where
  requests old hold := by
    obtain ⟨middle, hmiddle, hid, hagent, hhost⟩ := h.requests old hold
    obtain ⟨new, hnew, hid', hagent', hhost'⟩ := h'.requests middle hmiddle
    exact ⟨new, hnew, hid'.trans hid, hagent'.trans hagent, hhost'.trans hhost⟩
  agents new hnew hpending := h.agents new (h'.agents new hnew hpending) hpending
  hosts new hnew hpending := h.hosts new (h'.hosts new hnew hpending) hpending

/-- What was read stays true. -/
theorem ApprovalDecision.Reads.moved {input : ApprovalDecision} {w t : World} (h : input.Reads w)
    (hmoves : ApprovalsMove w t) : input.Reads t where
  request := by
    obtain ⟨old, hold, hid, hagent, hhost⟩ := h.request
    obtain ⟨new, hnew, hid', hagent', hhost'⟩ := hmoves.requests old hold
    exact ⟨new, hnew, hid'.trans hid, hagent'.trans hagent, hhost'.trans hhost⟩
  agent hread row hrow hid hpending :=
    h.agent hread row (hmoves.agents row hrow hpending) hid hpending
  host hread row hrow hid hpending :=
    h.host hread row (hmoves.hosts row hrow hpending) hid hpending

/-! ## The batch -/

section Batch

variable {input : ApprovalDecision} {w : World} {db : Database} {decided : Bool}

open Database ApprovalDecision

/-- A decision in time changes nothing, or gets its request. -/
theorem decideApproval_cases (hintime : input.gets w.db = true ∨ input.isIdle w.db = true)
    (hok : Database.decideApproval input w.db = .ok (decided, db)) :
    (decided = false ∧ db = w.db) ∨ (decided = true ∧ input.gets w.db = true) := by
  obtain ⟨hdecided, -, hafter⟩ := decideApproval_ok hok
  cases hgets : input.gets w.db with
  | true => exact Or.inr ⟨hdecided.trans hgets, rfl⟩
  | false =>
    refine Or.inl ⟨hdecided.trans hgets, ?_⟩
    have hidle : input.isIdle w.db = true := hintime.resolve_left (by simp [hgets])
    simp only [isIdle, Bool.and_eq_true, Bool.not_eq_true', List.any_eq_false] at hidle
    simp only [gets, List.any_eq_false] at hgets
    obtain ⟨⟨hagents, hhosts⟩, hgrants⟩ := hidle
    have hrequests : w.db.approvalRequests.any (input.decides w.db) = false :=
      List.any_eq_false.mpr hgets
    have hgrants' := Table.updateWhere_eq_self (f := input.decideGrant)
      fun row hrow hselected => absurd hselected (hgrants row hrow)
    have hagents' := Table.updateWhere_eq_self (f := input.decideAgent)
      fun row hrow hselected => absurd hselected (hagents row hrow)
    have hhosts' := Table.updateWhere_eq_self (f := input.decideHost)
      fun row hrow hselected => absurd hselected (hhosts row hrow)
    rw [hafter, hdecided, hrequests, hgrants', hagents', hhosts', Table.updateWhere_eq_self
      fun row hrow hselected => absurd hselected (hgets row hrow)]
    simp

/-- The request that a decision gets. -/
theorem ApprovalDecision.Reads.pending (hreads : input.Reads w) (hstand : w.db.ApprovalsStand)
    (hgets : input.gets w.db = true) :
    ∃ row ∈ w.db.approvalRequests, row.id = input.requestId ∧ row.status = "pending" ∧
      row.agentId = some input.agentId ∧ row.host? = input.hostId ∧ input.claims w.db = true := by
  obtain ⟨row, hrow, hselected⟩ := List.any_eq_true.mp hgets
  simp only [decides, Bool.and_eq_true, decide_eq_true_eq] at hselected
  obtain ⟨⟨hid, hpending⟩, hclaims⟩ := hselected
  obtain ⟨read, hread, hreadId, hagent, hhost⟩ := hreads.request
  obtain rfl := hstand.requests.eq_of_key hread hrow (hreadId.trans hid.symm)
  exact ⟨read, hread, hid, hpending, hagent, hhost, hclaims⟩

/-- The agent has no other controller. -/
theorem ApprovalDecision.claims_agent (hclaims : input.claims w.db = true)
    (hkeyed : Table.Keyed (·.id) w.db.agents) {row : AgentRecord} (hrow : row ∈ w.db.agents)
    (hid : row.id = input.agentId) : ∀ userId ∈ row.userId, userId = input.userId := by
  simp only [claims, Bool.and_eq_true, List.any_eq_true, decide_eq_true_eq] at hclaims
  obtain ⟨⟨other, hother, hotherId, hfree⟩, -⟩ := hclaims
  obtain rfl := hkeyed.eq_of_key hother hrow (hotherId.trans hid.symm)
  intro userId huser
  simpa [Option.mem_def.mp huser] using hfree

/-- The host has no other controller. -/
theorem ApprovalDecision.claims_host (hclaims : input.claims w.db = true)
    (hkeyed : Table.Keyed (·.id) w.db.agentHosts) {row : AgentHostRecord}
    (hrow : row ∈ w.db.agentHosts) (hid : input.hostId = some row.id) :
    ∀ userId ∈ row.userId, userId = input.userId := by
  simp only [claims, hid, Option.all_some, Bool.and_eq_true, List.any_eq_true,
    decide_eq_true_eq] at hclaims
  obtain ⟨-, other, hother, hotherId, hfree⟩ := hclaims
  obtain rfl := hkeyed.eq_of_key hother hrow hotherId
  intro userId huser
  simpa [Option.mem_def.mp huser] using hfree

/-- What a decision makes of an agent. -/
theorem agent_decided {row : AgentRecord}
    (hrow : row ∈ Table.updateWhere input.decidesAgent input.decideAgent w.db.agents) :
    ∃ old ∈ w.db.agents, row.id = old.id ∧
      ((row = old ∧ input.decidesAgent old = false) ∨
        (old.status = "pending" ∧ row.status ≠ "pending" ∧ row.userId = some input.userId)) := by
  obtain ⟨old, hold, rfl⟩ := Table.mem_updateWhere.mp hrow
  split_ifs with hselected
  · simp only [decidesAgent, Bool.and_eq_true, decide_eq_true_eq] at hselected
    refine ⟨old, hold, ?_, Or.inr ⟨hselected.2, ?_, ?_⟩⟩
    · cases haction : input.action <;> simp [decideAgent, haction]
    · cases haction : input.action <;> simp [decideAgent, haction]
    · cases haction : input.action <;> simp [decideAgent, haction]
  · exact ⟨old, hold, rfl, Or.inl ⟨rfl, by simpa using hselected⟩⟩

/-- What a decision makes of a host. -/
theorem host_decided {row : AgentHostRecord}
    (hrow : row ∈ Table.updateWhere input.decidesHost input.decideHost w.db.agentHosts) :
    ∃ old ∈ w.db.agentHosts, row.id = old.id ∧
      ((row = old ∧ input.decidesHost old = false) ∨
        (old.status = "pending" ∧ row.status ≠ "pending" ∧ row.userId = some input.userId)) := by
  obtain ⟨old, hold, rfl⟩ := Table.mem_updateWhere.mp hrow
  split_ifs with hselected
  · simp only [decidesHost, Bool.and_eq_true, decide_eq_true_eq] at hselected
    exact ⟨old, hold, rfl, Or.inr ⟨hselected.2, by simp [decideHost], rfl⟩⟩
  · exact ⟨old, hold, rfl, Or.inl ⟨rfl, by simpa using hselected⟩⟩

/-- What a decision makes of a request. -/
theorem request_decided {row : ApprovalRequest}
    (hrow : row ∈ Table.updateWhere (input.decides w.db)
      (fun row => { row with status := input.requestStatus, updatedAt := input.now })
      w.db.approvalRequests) :
    ∃ old ∈ w.db.approvalRequests, row.id = old.id ∧ row.agentId = old.agentId ∧
      row.host? = old.host? ∧ ((row = old ∧ input.decides w.db old = false) ∨
        (input.decides w.db old = true ∧ row.status = input.requestStatus)) := by
  obtain ⟨old, hold, rfl⟩ := Table.mem_updateWhere.mp hrow
  split_ifs with hselected
  · exact ⟨old, hold, rfl, rfl, rfl, Or.inr ⟨hselected, rfl⟩⟩
  · exact ⟨old, hold, rfl, rfl, rfl, Or.inl ⟨rfl, by simpa using hselected⟩⟩

/-- After a decision, its agent is settled, under the user who decided. -/
theorem agent_settled (hstand : w.db.ApprovalsStand) (hreads : input.Reads w)
    (hclaims : input.claims w.db = true) {row : AgentRecord}
    (hrow : row ∈ Table.updateWhere input.decidesAgent input.decideAgent w.db.agents)
    (hid : row.id = input.agentId) :
    row.status ≠ "pending" ∧ ∀ userId ∈ row.userId, userId = input.userId := by
  obtain ⟨old, hold, hsame, ⟨rfl, hkept⟩ | ⟨-, hsettled, hcontroller⟩⟩ := agent_decided hrow
  · refine ⟨?_, claims_agent hclaims hstand.agents hold hid⟩
    intro hpending
    apply hreads.agent _ row hold hid hpending
    simpa [decidesAgent, hid, hpending] using hkept
  · refine ⟨hsettled, ?_⟩
    intro userId huser
    rw [hcontroller] at huser
    exact (Option.mem_some.mp huser).symm

/-- After an approval, its host is settled, under the user who approved. -/
theorem host_settled (hstand : w.db.ApprovalsStand) (hreads : input.Reads w)
    (happroves : input.action = .approve) (hclaims : input.claims w.db = true)
    {row : AgentHostRecord}
    (hrow : row ∈ Table.updateWhere input.decidesHost input.decideHost w.db.agentHosts)
    (hid : input.hostId = some row.id) :
    row.status ≠ "pending" ∧ ∀ userId ∈ row.userId, userId = input.userId := by
  obtain ⟨old, hold, hsame, ⟨rfl, hkept⟩ | ⟨-, hsettled, hcontroller⟩⟩ := host_decided hrow
  · refine ⟨?_, claims_host hclaims hstand.hosts hold hid⟩
    intro hpending
    apply hreads.host _ row hold hid hpending
    simpa [decidesHost, happroves, hid, hpending] using hkept
  · refine ⟨hsettled, ?_⟩
    intro userId huser
    rw [hcontroller] at huser
    exact (Option.mem_some.mp huser).symm

/-- A decision that gets its request leaves its agent and its host settled, with one
controller. -/
theorem approvalsStand_decide (hstand : w.db.ApprovalsStand) (hreads : input.Reads w)
    (hgets : input.gets w.db = true)
    (hok : Database.decideApproval input w.db = .ok (decided, db)) :
    db.ApprovalsStand := by
  obtain ⟨-, -, rfl⟩ := decideApproval_ok hok
  obtain ⟨read, hread, hreadId, -, hreadAgent, hreadHost, hclaims⟩ := hreads.pending hstand hgets
  have hcontrolled : ∀ request ∈ Table.updateWhere (input.decides w.db)
      (fun row => { row with status := input.requestStatus, updatedAt := input.now })
      w.db.approvalRequests, request.status = "approved" →
        (∀ agent ∈ Table.updateWhere input.decidesAgent input.decideAgent w.db.agents,
          request.agentId = some agent.id → agent.status ≠ "pending") ∧
        (∀ host ∈ Table.updateWhere input.decidesHost input.decideHost w.db.agentHosts,
          request.host? = some host.id → host.status ≠ "pending") ∧
        ∀ agent ∈ Table.updateWhere input.decidesAgent input.decideAgent w.db.agents,
          request.agentId = some agent.id →
            ∀ host ∈ Table.updateWhere input.decidesHost input.decideHost w.db.agentHosts,
              request.host? = some host.id →
                ∀ userId ∈ agent.userId, ∀ hostUserId ∈ host.userId, userId = hostUserId := by
    intro request hrequest happroved
    obtain ⟨old, hold, -, hagentId, hhostId, ⟨rfl, -⟩ | ⟨hselected, hstatus⟩⟩ :=
      request_decided hrequest
    · -- approved before: neither its agent nor its host is pending, so that both stay as they are
      have hagent : ∀ agent ∈ Table.updateWhere input.decidesAgent input.decideAgent w.db.agents,
          request.agentId = some agent.id → agent ∈ w.db.agents := by
        intro agent hagent hid
        obtain ⟨before, hbefore, hsame, ⟨rfl, -⟩ | ⟨hpending, -⟩⟩ := agent_decided hagent
        · exact hbefore
        · exact absurd hpending
            (hstand.agentSettled request hold happroved before hbefore (hsame ▸ hid))
      have hhost : ∀ host ∈ Table.updateWhere input.decidesHost input.decideHost w.db.agentHosts,
          request.host? = some host.id → host ∈ w.db.agentHosts := by
        intro host hhost hid
        obtain ⟨before, hbefore, hsame, ⟨rfl, -⟩ | ⟨hpending, -⟩⟩ := host_decided hhost
        · exact hbefore
        · exact absurd hpending
            (hstand.hostSettled request hold happroved before hbefore (hsame ▸ hid))
      refine ⟨?_, ?_, ?_⟩
      · intro agent hmem hid
        exact hstand.agentSettled request hold happroved agent (hagent agent hmem hid) hid
      · intro host hmem hid
        exact hstand.hostSettled request hold happroved host (hhost host hmem hid) hid
      · intro agent hmem hid host hmem' hid'
        exact hstand.oneController request hold happroved agent (hagent agent hmem hid) hid host
          (hhost host hmem' hid') hid'
    · -- approved now: both belong to the user who decides
      have hrequest : old = read := by
        simp only [decides, Bool.and_eq_true, decide_eq_true_eq] at hselected
        exact hstand.requests.eq_of_key hold hread (hselected.1.1.trans hreadId.symm)
      subst hrequest
      have happroves : input.action = .approve := by
        cases haction : input.action with
        | approve => rfl
        | deny => simp [requestStatus, haction, hstatus] at happroved
      have hagent : ∀ agent ∈ Table.updateWhere input.decidesAgent input.decideAgent w.db.agents,
          request.agentId = some agent.id →
            agent.status ≠ "pending" ∧ ∀ userId ∈ agent.userId, userId = input.userId := by
        intro agent hmem hid
        rw [hagentId, hreadAgent, Option.some.injEq] at hid
        exact agent_settled hstand hreads hclaims hmem hid.symm
      have hhost : ∀ host ∈ Table.updateWhere input.decidesHost input.decideHost w.db.agentHosts,
          request.host? = some host.id →
            host.status ≠ "pending" ∧ ∀ userId ∈ host.userId, userId = input.userId := by
        intro host hmem hid
        rw [hhostId, hreadHost] at hid
        exact host_settled hstand hreads happroves hclaims hmem hid
      refine ⟨?_, ?_, ?_⟩
      · exact fun agent hmem hid => (hagent agent hmem hid).1
      · exact fun host hmem hid => (hhost host hmem hid).1
      · intro agent hmem hid host hmem' hid' userId huser hostUserId hhostUser
        exact ((hagent agent hmem hid).2 userId huser).trans
          ((hhost host hmem' hid').2 hostUserId hhostUser).symm
  constructor
  · exact hstand.requests.updateWhere fun _ => rfl
  · exact hstand.agents.updateWhere fun row => by cases haction : input.action <;>
      simp [decideAgent, haction]
  · exact hstand.hosts.updateWhere fun _ => rfl
  · exact fun request hrequest happroved => (hcontrolled request hrequest happroved).1
  · exact fun request hrequest happroved => (hcontrolled request hrequest happroved).2.1
  · intro request hrequest happroved agent hagent hid host hhost hid'
    exact (hcontrolled request hrequest happroved).2.2 agent hagent hid host hhost hid'

/-- What a decision activates is activated for the user who decides. -/
theorem activatesFor_decide (hstand : w.db.ApprovalsStand) (hreads : input.Reads w)
    (hgets : input.gets w.db = true)
    (hok : Database.decideApproval input w.db = .ok (decided, db)) :
    w.db.ActivatesFor input.userId db := by
  obtain ⟨-, -, hafter⟩ := decideApproval_ok hok
  have hrequests := congrArg approvalRequests hafter
  have hgrants := congrArg agentCapabilityGrants hafter
  have hagents := congrArg agents hafter
  have hhosts := congrArg agentHosts hafter
  dsimp only at hrequests hgrants hagents hhosts
  clear hafter hok
  obtain ⟨read, hread, hid, hpending, -, -, hclaims⟩ := hreads.pending hstand hgets
  have happroves : input.action = .approve → w.db.Approves db := by
    intro haction
    have hselected : input.decides w.db read = true := by
      simp [decides, hid, hpending, hclaims]
    have hnew : { read with status := input.requestStatus, updatedAt := input.now } ∈
        db.approvalRequests := by
      rw [hrequests]
      exact Table.mem_updateWhere_of_pos hread hselected
    exact ⟨read, hread, hpending, _, hnew, rfl, by simp [requestStatus, haction]⟩
  constructor
  · intro row hrow hnew hactive
    rw [hagents] at hrow
    obtain ⟨old, hold, rfl⟩ := Table.mem_updateWhere.mp hrow
    split_ifs at hnew hactive ⊢
    · cases haction : input.action with
      | approve => exact ⟨happroves haction, by simp [decideAgent, haction]⟩
      | deny => simp [decideAgent, haction] at hactive
    · exact absurd hold hnew
  · intro row hrow hnew hactive
    rw [hhosts] at hrow
    obtain ⟨old, hold, rfl⟩ := Table.mem_updateWhere.mp hrow
    split_ifs at hnew hactive ⊢ with hselected
    · simp only [decidesHost, Bool.and_eq_true, decide_eq_true_eq] at hselected
      exact ⟨happroves hselected.1.1.1, rfl⟩
    · exact absurd hold hnew
  · intro row hrow hnew hactive
    rw [hgrants] at hrow
    obtain ⟨old, hold, rfl⟩ := Table.mem_updateWhere.mp hrow
    split_ifs at hnew hactive ⊢
    · unfold decideGrant at hactive ⊢
      split_ifs at hactive ⊢ with hgranted
      · exact ⟨happroves hgranted.1, rfl⟩
      · simp at hactive
    · exact absurd hold hnew

/-- Nothing becomes pending in a decision. -/
theorem approvalsMove_decide (hok : Database.decideApproval input w.db = .ok (decided, db)) :
    ApprovalsMove w { w with db := db } := by
  obtain ⟨-, -, rfl⟩ := decideApproval_ok hok
  constructor
  · intro old hold
    refine ⟨_, Table.mem_updateWhere.mpr ⟨old, hold, rfl⟩, ?_⟩
    split_ifs
    · exact ⟨rfl, rfl, rfl⟩
    · exact ⟨rfl, rfl, rfl⟩
  · intro new hnew hpending
    obtain ⟨old, hold, -, ⟨rfl, -⟩ | ⟨-, hsettled, -⟩⟩ := agent_decided hnew
    · exact hold
    · exact absurd hpending hsettled
  · intro new hnew hpending
    obtain ⟨old, hold, -, ⟨rfl, -⟩ | ⟨-, hsettled, -⟩⟩ := host_decided hnew
    · exact hold
    · exact absurd hpending hsettled

end Batch

/-! ## Commands -/

section Commands

variable {w : World} {command : Command}

/-- What a promised command that executes in time does to the state. -/
theorem exec_decision {call : DecisionCall} (hstand : w.db.ApprovalsStand)
    (hintime : DecidesInTime command w) (hpromise : approvalPromises.promise call command w) :
    (Executes.exec command w).db.ApprovalsStand ∧ ApprovalsMove w (Executes.exec command w) ∧
      w.db.ActivatesFor call.userId (Executes.exec command w).db := by
  have hsame : ∀ t : World, t.db = w.db → t.db.ApprovalsStand ∧ ApprovalsMove w t ∧
      w.db.ActivatesFor call.userId t.db := by
    intro t ht
    rw [ht]
    refine ⟨hstand, ⟨?_, ?_, ?_⟩, ⟨?_, ?_, ?_⟩⟩
    · rw [ht]
      exact (ApprovalsMove.refl w).requests
    · rw [ht]
      exact (ApprovalsMove.refl w).agents
    · rw [ht]
      exact (ApprovalsMove.refl w).hosts
    · exact fun row hrow hnew => absurd hrow hnew
    · exact fun row hrow hnew => absurd hrow hnew
    · exact fun row hrow hnew => absurd hrow hnew
  cases command with
  | read => exact hsame _ rfl
  | generateId => exact hsame _ rfl
  | agentApproval command =>
    cases command with
    | decideApproval input =>
      obtain ⟨huser, hreads⟩ := hpromise
      apply Statement.after_keeps (p := fun db => db.ApprovalsStand ∧
        ApprovalsMove w { w with db := db } ∧ w.db.ActivatesFor call.userId db)
      · exact hsame w rfl
      · intro decided db hok
        rcases decideApproval_cases (hintime input rfl) hok with ⟨-, rfl⟩ | ⟨-, hgets⟩
        · exact hsame w rfl
        · exact ⟨approvalsStand_decide hstand hreads hgets hok, approvalsMove_decide hok,
            huser ▸ activatesFor_decide hstand hreads hgets hok⟩
    | _ => exact hpromise.elim
  | _ => exact hpromise.elim

end Commands

/-! ## The programs -/

/-- The commands that change no table. -/
def Command.LooksUp : Command → Prop
  | .read => True
  | .generateId => True
  | _ => False

section Programs

variable [Platform] {call : DecisionCall} {w : World}

omit [Platform] in
theorem quiet_looks : Quiet (approvalPromises.contract call) Command.LooksUp where
  refl := ApprovalsMove.refl
  trans := ApprovalsMove.trans
  guarantee c hc s _ := by
    cases c with
    | read => trivial
    | generateId => trivial
    | _ => exact hc.elim
  moves c hc s _ := by
    cases c with
    | read => exact ApprovalsMove.refl s
    | generateId => exact ⟨(ApprovalsMove.refl s).requests, fun _ h _ => h, fun _ h _ => h⟩
    | _ => exact hc.elim

omit [Platform] in
theorem decideApproval_meets (input : ApprovalInput) (audit : AgentAuditEvent)
    (huser : input.userId = call.userId) :
    (decideApproval input audit).Meets (approvalPromises.contract call) (fun _ _ => True) w := by
  apply meets_query
  intro s _ _
  refine ⟨trivial, ?_⟩
  apply meets_orThrow fun _ => trivial
  intro request hrequest
  apply meets_query
  intro t hst hinv
  refine ⟨trivial, ?_⟩
  apply meets_query
  intro u htu hinv'
  refine ⟨trivial, ?_⟩
  apply meets_query
  intro v huv _
  refine ⟨trivial, ?_⟩
  apply meets_orThrow fun _ => trivial
  intro currentAgent hagent
  apply meets_throwIf fun _ => trivial
  intro _
  apply meets_throwIf fun _ => trivial
  intro _
  apply meets_throwIf fun _ => trivial
  intro _
  apply meets_perform
  intro z hvz _
  refine ⟨⟨huser, ?_⟩, ?_⟩
  · -- what is read of the request, of the agent and of the host is each still true
    have hread := List.mem_of_find?_eq_some hrequest
    have hmatches := List.find?_some hrequest
    simp only [Bool.and_eq_true, decide_eq_true_eq] at hmatches
    constructor
    · have hmoves := ((hst.trans htu).trans huv).trans hvz
      obtain ⟨new, hnew, hid, hagentId, hhostId⟩ := hmoves.requests request hread
      exact ⟨new, hnew, hid, hagentId.trans hmatches.1.1.1.1, hhostId⟩
    · intro hsettled row hrow hid hpending
      have hold := ((htu.trans huv).trans hvz).agents row hrow hpending
      have hsame := hinv.1.agents.eq_of_key (List.mem_of_find?_eq_some hagent) hold
        ((by simpa using List.find?_some hagent : currentAgent.id = input.agentId).trans hid.symm)
      simp [approvalDecision, hsame, hpending] at hsettled
    · intro hsettled row hrow hid hpending
      have hold := (huv.trans hvz).hosts row hrow hpending
      have hid' : request.host? = some row.id := hid
      have hfound : (u.db.agentHosts.find? fun host => host.id = row.id) = some row := by
        cases hfind : u.db.agentHosts.find? fun host => host.id = row.id with
        | none => simpa using List.find?_eq_none.mp hfind row hold
        | some host =>
          rw [hinv'.1.hosts.eq_of_key (List.mem_of_find?_eq_some hfind) hold
            (by simpa using List.find?_some hfind)]
      simp [approvalDecision, hid', hfound, hpending] at hsettled
  · split
    · exact meets_throwIf (fun _ => trivial) fun _ => trivial
    · trivial

omit [Platform] in
theorem findActiveByProtocolAgent_looks (id : String) :
    (findActiveByProtocolAgent id).Uses Command.LooksUp := by
  apply uses_bind (uses_query.mpr trivial)
  intro identity
  split
  · exact Uses.bind (uses_bind (uses_query.mpr trivial) fun _ => trivial) fun _ => trivial
  · trivial

theorem decideAgentApproval_meets (input : AgentDecision) :
    (decideAgentApproval input call.userId).Meets (approvalPromises.contract call)
      (fun _ _ => True) w := by
  unfold decideAgentApproval
  apply quiet_looks.meets_bind (uses_query.mpr trivial) _ fun _ _ _ => trivial
  intro grants _ _
  apply quiet_looks.meets_bind (findActiveByProtocolAgent_looks _) _ fun _ _ _ => trivial
  intro identity _ _
  apply quiet_looks.meets_bind (uses_query.mpr trivial) _ fun _ _ _ => trivial
  intro protocolAgent _ _
  apply quiet_looks.meets_bind (uses_currentTime.mpr trivial) _ fun _ _ _ => trivial
  intro now _ _
  apply quiet_looks.meets_bind (uses_generateId.mpr trivial) _ fun _ _ _ => trivial
  intro auditId _ _
  apply quiet_looks.meets_bind (uses_currentTime.mpr trivial) _ fun _ _ _ => trivial
  intro occurredAt _ _
  exact decideApproval_meets _ _ rfl

theorem approvalPromises_sound : approvalPromises.Sound approvalSystem where
  refl := ApprovalsMove.refl
  trans := ApprovalsMove.trans
  stable _ _ _ _ _ _ := trivial
  program call w _ := decideAgentApproval_meets call.input
  exec call command w hinv hcond hpromise :=
    have hexec := exec_decision hinv hcond hpromise
    ⟨hexec.1, hexec.2.1⟩
  environment event w hinv := by
    cases event with
    | elapse milliseconds =>
      exact ⟨hinv, (ApprovalsMove.refl w).requests, fun _ h _ => h, fun _ h _ => h⟩
    | configure db =>
      refine ⟨?_, (ApprovalsMove.refl w).requests, fun _ h _ => h, fun _ h _ => h⟩
      exact ⟨hinv.requests, hinv.agents, hinv.hosts, hinv.agentSettled, hinv.hostSettled,
        hinv.oneController⟩

/-! ### All or nothing -/

/-- A command in time changes the agents, the hosts or the grants. -/
def ChangesAuthority (command : Command) (w : World) : Prop :=
  DecidesInTime command w ∧ ¬ w.db.SameAuthority (Executes.exec command w).db

omit [Platform] in
theorem Command.LooksUp.changesNothing (command : Command) (h : command.LooksUp) (w : World) :
    ¬ ChangesAuthority command w := by
  intro hchanges
  apply hchanges.2
  cases command with
  | read => exact ⟨rfl, rfl, rfl⟩
  | generateId => exact ⟨rfl, rfl, rfl⟩
  | _ => exact h.elim

omit [Platform] in
/-- A batch that changes something has got its request. -/
theorem settles_of_changes {input : ApprovalDecision}
    (h : ChangesAuthority (.agentApproval (.decideApproval input)) w) :
    ∃ db, Database.decideApproval input w.db = .ok (true, db) := by
  obtain ⟨hintime, hchanges⟩ := h
  cases hbatch : Database.decideApproval input w.db with
  | error e =>
    have hafter := Statement.after_of_error hbatch
    exact absurd ⟨congrArg Database.agents hafter, congrArg Database.agentHosts hafter,
      congrArg Database.agentCapabilityGrants hafter⟩ hchanges
  | ok result =>
    obtain ⟨decided, db⟩ := result
    rcases decideApproval_cases (hintime input rfl) hbatch with ⟨-, rfl⟩ | ⟨rfl, -⟩
    · have hafter := Statement.after_of_ok hbatch
      exact absurd ⟨congrArg Database.agents hafter, congrArg Database.agentHosts hafter,
        congrArg Database.agentCapabilityGrants hafter⟩ hchanges
    · exact ⟨db, rfl⟩

omit [Platform] in
theorem decideApproval_commits (input : ApprovalInput) (audit : AgentAuditEvent) :
    (decideApproval input audit).Commits ChangesAuthority := by
  have hread := Command.LooksUp.changesNothing .read trivial
  unfold decideApproval
  apply Commits.bind (uses_query.mpr hread)
  intro found
  apply Commits.bind uses_orThrow
  intro request
  apply Commits.bind (uses_query.mpr hread)
  intro found
  apply Commits.bind (uses_query.mpr hread)
  intro host
  apply Commits.bind (uses_query.mpr hread)
  intro pendingGrants
  apply Commits.bind uses_orThrow
  intro currentAgent
  apply Commits.bind uses_throwIf
  intro _
  apply Commits.bind uses_throwIf
  intro _
  apply Commits.bind uses_throwIf
  intro _ w
  dsimp only
  constructor
  · intro hchanges
    obtain ⟨db, hok⟩ := settles_of_changes hchanges
    simp only [ApprovalCommand.statement, hok]
    trivial
  · split
    · rename_i decided _ _
      exact Commits.bind (p := throwIf (decided = false) approvalNotPending) uses_throwIf
        fun _ => trivial
    · trivial

theorem decideAgentApproval_commits (input : AgentDecision) (userId : String) :
    (decideAgentApproval input userId).Commits ChangesAuthority := by
  have hlooks := Command.LooksUp.changesNothing
  unfold decideAgentApproval
  apply Commits.bind (uses_query.mpr (hlooks .read trivial))
  intro grants
  apply Commits.bind ((findActiveByProtocolAgent_looks _).mono hlooks)
  intro identity
  apply Commits.bind (uses_query.mpr (hlooks .read trivial))
  intro protocolAgent
  apply Commits.bind (uses_currentTime.mpr (hlooks .read trivial))
  intro now
  apply Commits.bind (uses_generateId.mpr (hlooks .generateId trivial))
  intro auditId
  apply Commits.bind (uses_currentTime.mpr (hlooks .read trivial))
  intro occurredAt
  exact decideApproval_commits _ _

end Programs

/-! ## The audit trail -/

section Audit

variable {log : List (DecisionCall × Command × World)} {call : DecisionCall} {command : Command}
  {w t : World}

theorem decisionsOf_append :
    decisionsOf (log ++ [(call, command, t)]) = decisionsOf log ++
      (command.decision?.filter fun input => input.settles t.db).toList := by
  unfold decisionsOf
  rw [List.filterMap_append]
  cases h : command.decision?.filter fun input => input.settles t.db <;> simp [h]

theorem AuditedOnce.nil (db : Database) : AuditedOnce [] db db where
  trail := by simp [decisionsOf]
  once := List.nodup_nil
  decided := by simp [decisionsOf]
  others _ hrow _ := hrow

/-- A request that is decided is not pending. -/
theorem AuditedOnce.notPending (h : AuditedOnce log w.db t.db)
    (hkeyed : Table.Keyed (·.id) t.db.approvalRequests) {row : ApprovalRequest}
    (hrow : row ∈ t.db.approvalRequests) (hpending : row.status = "pending") :
    row.id ∉ (decisionsOf log).map (·.requestId) := by
  intro hmem
  obtain ⟨input, hinput, hid⟩ := List.mem_map.mp hmem
  obtain ⟨first, -, hfirst, -, last, hlast, hlastId, hstatus⟩ := h.decided input hinput
  have hsame := hkeyed.eq_of_key hlast hrow ((hlastId.trans hfirst).trans hid)
  rw [hsame, hpending] at hstatus
  cases haction : input.action <;> simp [ApprovalDecision.requestStatus, haction] at hstatus

/-- The trail after one more decision. -/
theorem AuditedOnce.decide {input : ApprovalDecision} {db : Database}
    (h : AuditedOnce log w.db t.db) (hstand : t.db.ApprovalsStand)
    (hok : Database.decideApproval input t.db = .ok (true, db)) :
    AuditedOnce (log ++ [(call, .agentApproval (.decideApproval input), t)]) w.db db := by
  have hsettles : input.settles t.db = true := by
    simp [ApprovalDecision.settles, hok, Except.toOption]
  have hlog : decisionsOf (log ++ [(call, .agentApproval (.decideApproval input), t)]) =
      decisionsOf log ++ [input] := by
    rw [decisionsOf_append]
    simp [Command.decision?, Option.filter, hsettles]
  obtain ⟨hgets, -, rfl⟩ := Database.decideApproval_ok hok
  obtain ⟨row, hrow, hselected⟩ := List.any_eq_true.mp hgets.symm
  have hmatches := hselected
  simp only [ApprovalDecision.decides, Bool.and_eq_true, decide_eq_true_eq] at hmatches
  have hnew := h.notPending hstand.requests hrow hmatches.1.2
  constructor
  · rw [hlog, List.map_append, ← List.append_assoc, ← h.trail]
    rfl
  · rw [hlog, List.map_append, List.nodup_append]
    refine ⟨h.once, by simp, ?_⟩
    intro id hid id' hid' heq
    rw [List.map_cons, List.map_nil, List.mem_singleton] at hid'
    exact hnew (hmatches.1.1.trans hid'.symm ▸ heq ▸ hid)
  · intro other hother
    rw [hlog] at hother
    rcases List.mem_append.mp hother with hbefore | hlast
    · obtain ⟨first, hfirst, hid, hpending, last, hlast, hlastId, hstatus⟩ :=
        h.decided other hbefore
      refine ⟨first, hfirst, hid, hpending, last, ?_, hlastId, hstatus⟩
      apply Table.mem_updateWhere_of_not hlast
      have hsettled : last.status ≠ "pending" := by
        rw [hstatus]
        cases haction : other.action <;> simp [ApprovalDecision.requestStatus, haction]
      simp [ApprovalDecision.decides, hsettled]
    · cases List.mem_singleton.mp hlast
      exact ⟨row, h.others row hrow hnew, hmatches.1.1, hmatches.1.2, _,
        Table.mem_updateWhere_of_pos hrow hselected, rfl, rfl⟩
  · intro other hother hdecided
    rw [hlog, List.map_append, List.mem_append, not_or] at hdecided
    obtain ⟨old, hold, hid, -, -, ⟨rfl, -⟩ | ⟨hselected, -⟩⟩ := request_decided hother
    · exact h.others other hold hdecided.1
    · simp only [ApprovalDecision.decides, Bool.and_eq_true, decide_eq_true_eq] at hselected
      exact absurd (List.mem_singleton.mpr (hid.trans hselected.1.1)) hdecided.2

end Audit

/-! ## Runs -/

section Runs

variable [Platform] {w : World} {schedule : List DecisionAction}

/-- The trail of a run. -/
theorem auditedOnce_run (hstart : w.db.ApprovalsStand)
    (hintime : ∀ entry ∈ (idle w).history approvalSystem schedule,
      DecidesInTime entry.2.1 entry.2.2) :
    AuditedOnce ((idle w).history approvalSystem schedule) w.db
      ((idle w).run approvalSystem schedule).state.db := by
  refine approvalPromises_sound.recorded (I := fun log t => AuditedOnce log w.db t.db) hstart
    (fun _ _ _ => trivial) hintime (.nil w.db) ?_ ?_
  · intro log call command t hinv hcond hpromise h
    have hsame : ∀ u : World, u.db = t.db →
        (command.decision?.filter fun input => input.settles t.db) = none →
          AuditedOnce (log ++ [(call, command, t)]) w.db u.db := by
      intro u hu hnone
      have hlog : decisionsOf (log ++ [(call, command, t)]) = decisionsOf log ++
          (command.decision?.filter fun input => input.settles t.db).toList := decisionsOf_append
      rw [hnone, Option.toList_none, List.append_nil] at hlog
      rw [hu]
      exact ⟨hlog ▸ h.trail, hlog ▸ h.once, hlog ▸ h.decided, hlog ▸ h.others⟩
    cases command with
    | read => exact hsame _ rfl rfl
    | generateId => exact hsame _ rfl rfl
    | agentApproval command =>
      cases command with
      | decideApproval input =>
        cases hbatch : Database.decideApproval input t.db with
        | error e =>
          have hafter := Statement.after_of_error hbatch
          exact hsame _ hafter
            (by simp [Command.decision?, ApprovalDecision.settles, hbatch, Except.toOption])
        | ok result =>
          obtain ⟨decided, db⟩ := result
          have hafter := Statement.after_of_ok hbatch
          cases decided with
          | false =>
            have hunchanged := decideApproval_cases (hcond input rfl) hbatch
            simp only [true_and, Bool.false_eq_true, false_and, or_false] at hunchanged
            exact hsame _ (hafter.trans hunchanged)
              (by simp [Command.decision?, ApprovalDecision.settles, hbatch, Except.toOption])
          | true =>
            have hdecided : AuditedOnce (log ++ [(call, .agentApproval (.decideApproval input), t)])
                w.db db := h.decide hinv hbatch
            rw [← hafter] at hdecided
            exact hdecided
      | _ => exact hpromise.elim
    | _ => exact hpromise.elim
  · intro log event t _ h
    cases event with
    | elapse milliseconds => exact h
    | configure db => exact ⟨h.trail, h.once, h.decided, h.others⟩

/-- As long as a decision that does not get its request changes nothing else: a call that throws
leaves the agents, the hosts and the grants as they are; what becomes active does so for the user
who changes a request from pending; an agent and its host have one controller; and the events of
the trail are the decisions. -/
theorem decisions_whole (hstart : w.db.ApprovalsStand)
    (hintime : ∀ entry ∈ (idle w).history approvalSystem schedule,
      DecidesInTime entry.2.1 entry.2.2) :
    (∀ i call e, ((idle w).run approvalSystem schedule).procs[i]? = some (call, .throw e) →
      ∀ entry ∈ (idle w).commandsOf approvalSystem i schedule,
        entry.2.db.SameAuthority (Executes.exec entry.1 entry.2).db) ∧
    (∀ entry ∈ (idle w).history approvalSystem schedule,
      entry.2.2.db.ActivatesFor entry.1.userId (Executes.exec entry.2.1 entry.2.2).db) ∧
    (∀ s ∈ (idle w).states approvalSystem schedule, s.db.OneController) ∧
    AuditedOnce ((idle w).history approvalSystem schedule) w.db
      ((idle w).run approvalSystem schedule).state.db := by
  have hanswers : ∀ i reply, Action.advance i reply ∈ schedule → approvalPromises.answers reply :=
    fun _ _ _ => trivial
  refine ⟨?_, ?_, ?_, auditedOnce_run hstart hintime⟩
  · intro i call e hend entry hentry
    have hcommits : ∀ call, ((approvalSystem.program call)).Commits ChangesAuthority :=
      fun call => decideAgentApproval_commits call.input call.userId
    have hnothing := (committing_idle w).commandsOf_throw hcommits hend entry hentry
    obtain ⟨request, hmem⟩ := mem_history_of_commandsOf hentry
    exact not_not.mp fun hchanges => hnothing ⟨hintime _ hmem, hchanges⟩
  · intro entry hentry
    obtain ⟨hinv, hpromise⟩ := approvalPromises_sound.history hstart hanswers hintime entry hentry
    exact (exec_decision hinv (hintime entry hentry) hpromise).2.2
  · intro s hs
    exact (approvalPromises_sound.states hstart hanswers hintime s hs).oneController

end Runs

/-! ## A decision that loses its request -/

namespace ApprovalExample

attribute [local instance] samplePlatform

def host : AgentHostRecord :=
  { id := "host", name := none, userId := none, publicKey := none, kid := none
    status := "pending", activatedAt := none, createdAt := 0, updatedAt := 0 }

def agent (id : String) : AgentRecord :=
  { id := id, name := id, userId := none, hostId := "host", status := "pending"
    mode := "delegated", publicKey := "key", kid := none, activatedAt := none, createdAt := 0
    updatedAt := 0 }

def grant (agentId : String) : AgentCapabilityGrant :=
  { id := agentId, agentId := agentId, capability := "read", deniedBy := none, grantedBy := none
    status := "pending", createdAt := 0, updatedAt := 0 }

def request (agentId userCodeHash : String) : ApprovalRequest :=
  { id := agentId, method := "device_authorization", agentId := some agentId
    hostId := some "host", userId := none, status := "pending", userCodeHash := some userCodeHash
    expiresAt := 1000, createdAt := 0, updatedAt := 0 }

/-- Two agents of one host wait for their approval. -/
def start : World :=
  { db :=
      { agentHosts := [host], agents := [agent "first", agent "second"]
        agentCapabilityGrants := [grant "first", grant "second"]
        approvalRequests := [request "first" "AAAA-1111", request "second" "BBBB-2222"] }
    clock := 0, nextId := 0 }

def approve (agentId userCode userId : String) : DecisionCall :=
  { input :=
      { agentId := agentId, userCode := userCode, action := .approve, capabilities := none }
    userId := userId }

def steps (count i : ℕ) : List DecisionAction := List.replicate count (.advance i {})

/-- Two users have passed the checks when the first of them decides. -/
def interleaved : List DecisionAction :=
  [.start (approve "first" "AAAA-1111" "ada"), .start (approve "second" "BBBB-2222" "bob")] ++
    steps 10 0 ++ steps 10 1 ++ steps 1 0 ++ steps 1 1

/-- The second user's call throws, and its agent and its grant are active, on the host of the
first user. -/
theorem decision_lost :
    let P := (idle start).run approvalSystem interleaved
    P.procs.map (fun entry => (entry.1.userId, entry.2.result?)) =
      [("ada", some (.ok "approved")), ("bob", some (.error approvalNotPending))] ∧
    P.state.db.agents.map (fun row => (row.id, row.status, row.hostId, row.userId)) =
      [("first", "active", "host", some "ada"), ("second", "active", "host", some "bob")] ∧
    P.state.db.agentHosts.map (fun row => (row.id, row.userId)) = [("host", some "ada")] ∧
    P.state.db.agentCapabilityGrants.map (fun row => (row.agentId, row.status, row.grantedBy)) =
      [("first", "active", some "ada"), ("second", "active", some "bob")] := by
  decide +kernel

def consecutive : List DecisionAction :=
  [.start (approve "first" "AAAA-1111" "ada"), .start (approve "second" "BBBB-2222" "ada")] ++
    steps 11 0 ++ steps 11 1

theorem approvalsStand_start : start.db.ApprovalsStand where
  requests := by simp [Table.Keyed, start, request]
  agents := by simp [Table.Keyed, start, agent]
  hosts := by simp [Table.Keyed, start]
  agentSettled := by decide
  hostSettled := by decide
  oneController := by
    intro request hrequest happroved
    simp only [start, List.mem_cons, List.not_mem_nil, or_false] at hrequest
    rcases hrequest with rfl | rfl
    · simp [request] at happroved
    · simp [request] at happroved

/-- One user approves both. -/
theorem decisions_whole_consecutive :
    (∀ s ∈ (idle start).states approvalSystem consecutive, s.db.OneController) ∧
      AuditedOnce ((idle start).history approvalSystem consecutive) start.db
        ((idle start).run approvalSystem consecutive).state.db :=
  (@decisions_whole _ start consecutive approvalsStand_start (by decide +kernel)).2.2

end ApprovalExample

end Realmroot
