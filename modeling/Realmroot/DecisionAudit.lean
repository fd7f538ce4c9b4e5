import Realmroot.AccessPrograms
import Realmroot.Library.Promises

/-!
# The trail of decisions

A decision that ends a pending request records one event, in the batch that decides. A denial
looks for the pending request before it changes it. An approval looks for the approved request
after its update, so that it also finds what a competing approval has decided.
-/

namespace Realmroot

open AtomicProgram Program Pool

/-! ## The system -/

/-- A call of `decideAgentAccessRequest`. -/
structure DecisionRequest where
  requestId : String
  input : DecideAgentAccessRequest
  actorUserId : String
  approvalReasonCode : Option String := none

def accessDecided : String := "api_resource.access_decided"

/-- The batches that decide a request, or say in the trail that one was decided. -/
def AccessCommand.decides : AccessCommand → Bool
  | decideAccessRequest .. => true
  | approveAccessRequest .. => true
  | endEntitlementWithAudit _ _ _ _ audit => audit.action = accessDecided
  | issueTokenLease _ _ _ _ audit => audit.action = accessDecided
  | deleteResource _ _ audit => audit.action = accessDecided
  | _ => false

/-- Time passes, requests are created, other statements on permissions execute, and the tables
other than those of requests and of the trail change in any way. -/
inductive DecisionEvent where
  | elapse (milliseconds : ℕ)
  | createRequest (row : AgentAccessRequest)
  | statement (command : { command : AccessCommand // command.decides = false })
  | configure (db : Database)

def DecisionEvent.apply : DecisionEvent → World → World
  | .elapse milliseconds, w => { w with clock := w.clock + milliseconds }
  | .createRequest row, w => commit (Database.createAccessRequest row) w
  | .statement command, w => exec (Command.access command.val) w
  | .configure db, w =>
    { w with
      db := { db with
        agentAccessRequests := w.db.agentAccessRequests
        agentAuditEvents := w.db.agentAuditEvents } }

def decisionSystem [Platform] :
    System Command World Reply Error DecidedAccessRequest DecisionRequest DecisionEvent where
  program request := decideAgentAccessRequest request.requestId request.input
    request.actorUserId request.approvalReasonCode
  environment := DecisionEvent.apply

/-! ## Decisions and events -/

namespace DecideAgentAccessRequest

/-- The outcome that the trail records. -/
def result : DecideAgentAccessRequest → String
  | deny => "denied"
  | approve _ _ => "allowed"

/-- The status of a request that was decided so; a lease consumes an approved request. -/
def Stands : DecideAgentAccessRequest → AccessRequestStatus → Prop
  | deny, status => status = .denied
  | approve _ _, status => status = .approved ∨ status = .consumed

end DecideAgentAccessRequest

/-- The events of the trail that say of a request that it was decided. -/
def Database.decisions (db : Database) (id : String) : List AgentAuditEvent :=
  db.agentAuditEvents.filter fun event =>
    event.action = accessDecided && event.accessRequestId = some id

/-- The command ends the pending status of the request. -/
def EndsPending (id : String) (entry : DecisionRequest × Command × World) : Bool :=
  Database.isPending id entry.2.2.db && !Database.isPending id (exec entry.2.1 entry.2.2).db

/-- What the trail says of a request. Either no call has ended its pending status, and there is no
event; or one call has, there is one event, and both the event and the status of the request are
as that call decided. -/
def TrailAgrees (history : List (DecisionRequest × Command × World)) (db : Database)
    (id : String) : Prop :=
  (history.filter (EndsPending id) = [] ∧ db.decisions id = []) ∨
    ∃ entry event, history.filter (EndsPending id) = [entry] ∧ db.decisions id = [event] ∧
      event.result = entry.1.input.result ∧ event.controllerUserId = some entry.1.actorUserId ∧
        ∃ row, db.findAccessRequest id = some row ∧ entry.1.input.Stands row.status

/-- The approval that a command is the batch of. -/
def Command.approval? : Command → Option Approval
  | .access (.approveAccessRequest approval) => some approval
  | _ => none

/-- An approval that goes through executes while its request is not approved yet. -/
def Command.DecidesOnce : Command → World → Prop
  | .access (.approveAccessRequest approval), w =>
    (Database.approveAccessRequestWithEntitlements approval).refuses w.db = true ∨
      Database.isApproved approval.requestId w.db = false
  | _, _ => True

instance (command : Command) (w : World) : Decidable (command.DecidesOnce w) := by
  unfold Command.DecidesOnce
  split <;> infer_instance

/-! ## What a decision promises -/

/-- The event says what the call decides. -/
def DecisionRequest.Records (request : DecisionRequest) (audit : AgentAuditEvent) : Prop :=
  audit.action = accessDecided ∧ audit.result = request.input.result ∧
    audit.accessRequestId = some request.requestId ∧
      audit.controllerUserId = some request.actorUserId

/-- The decision is the one of the call. -/
def DecisionRequest.Decides (request : DecisionRequest) : AccessRequestDecision → Prop
  | .denied _ => request.input = .deny
  | .approved .. => ∃ lifetime details, request.input = .approve lifetime details

/-- The commands of a call. -/
def DecisionRequest.Issues (request : DecisionRequest) : Command → Prop
  | .access (.decideAccessRequest id decision audit) =>
    id = request.requestId ∧ (∃ now, decision = .denied now) ∧ request.Decides decision ∧
      request.Records audit
  | .access (.approveAccessRequest approval) =>
    approval.requestId = request.requestId ∧
      (∃ rows connectionId details now, approval.decision = .approved rows connectionId details now) ∧
        request.Decides approval.decision ∧ request.Records approval.audit
  | c => c.Upkeep

def decisionPromises :
    Promises Command World Reply Error DecidedAccessRequest DecisionRequest where
  inv w := Table.Keyed (·.id) w.db.agentAccessRequests
  moves _ _ := True
  cond _ command w := command.DecidesOnce w
  promise request command _ := request.Issues command
  post _ _ _ := True

/-! ## The programs -/

theorem resourceAuditRecord_returns [Platform] (input : ResourceAudit) :
    (resourceAuditRecord input).Returns fun audit =>
      audit.action = input.action ∧ audit.result = input.result ∧
        audit.accessRequestId = input.accessRequestId ∧
          audit.controllerUserId = input.controllerUserId := by
  apply Returns.bind (returns_true _)
  intro tenant _
  apply Returns.bind (returns_true _)
  intro id _
  apply Returns.bind (returns_true _)
  intro occurredAt _
  exact ⟨rfl, rfl, rfl, rfl⟩

theorem requirePendingRequest_returns (requestId : String) :
    (requirePendingRequest requestId).Returns fun request => request.id = requestId := by
  have hfound : (query (·.findAccessRequest requestId)).Returns fun found =>
      ∀ request, found = some request → request.id = requestId := by
    apply returns_query
    intro db request hrequest
    simpa using List.find?_some hrequest
  apply hfound.bind
  intro found hfound
  apply Returns.bind (returns_true _)
  intro now _
  apply returns_orThrow
  intro request hrequest
  exact hfound request (Option.filter_eq_some_iff.mp hrequest).1

theorem prepareApproval_returns [Platform] (request : AgentAccessRequest)
    (lifetime : PermissionLifetime) (authorizationDetails : List AuthorizationDetail)
    (actorUserId : String) (now : Time) :
    (prepareApproval request lifetime authorizationDetails actorUserId now).Returns fun prepared =>
      prepared.1.request = request := by
  apply Returns.bind (returns_true _)
  intro resource _
  apply Returns.bind (returns_true _)
  intro _ _
  apply Returns.bind (returns_true _)
  intro connection _
  apply Returns.bind (returns_true _)
  intro _ _
  exact rfl

section Programs

variable [Platform] {request : DecisionRequest}

omit [Platform] in
theorem DecisionRequest.issues_upkeep {c : Command} (h : c.Upkeep) : request.Issues c := by
  cases c with
  | access command => cases command <;> first | exact h | exact h.elim
  | _ => exact h

/-- What is recorded of a decision is its record. -/
theorem decisionAudit_returns (record : AgentAccessRequest)
    (connection : Option ProviderResourceAuthorizationRecord) (result : String)
    (authorizationDetails : List AuthorizationDetail) (reasonCode : Option String)
    (hid : record.id = request.requestId) (hresult : result = request.input.result) :
    (resourceAuditRecord (decisionAudit record connection request.actorUserId result
      authorizationDetails reasonCode)).Returns request.Records := by
  apply (resourceAuditRecord_returns _).mono
  rintro audit ⟨haction, hrecorded, hrequest, hcontroller⟩
  refine ⟨haction, hrecorded.trans hresult, ?_, hcontroller⟩
  rw [hrequest, ← hid]
  rfl

theorem denyAccessRequest_issues {record : AgentAccessRequest}
    (connection : Option ProviderResourceAuthorizationRecord) (now : Time)
    (hid : record.id = request.requestId) (hinput : request.input = .deny) :
    (denyAccessRequest record connection request.actorUserId now).Uses request.Issues := by
  have hupkeep : ∀ c : Command, c.Upkeep → request.Issues c :=
    fun c => DecisionRequest.issues_upkeep
  apply Uses.bind_returns (resourceAuditRecord_uses (hupkeep .read trivial)
    (hupkeep .generateId trivial) _)
  · exact decisionAudit_returns record connection _ _ _ hid (by rw [hinput]; rfl)
  · intro audit haudit
    apply uses_bind
    · apply uses_perform.mpr
      exact ⟨hid, ⟨now, rfl⟩, hinput, haudit⟩
    · intro decided
      apply uses_bind uses_orThrow
      intro decided
      exact decidedRequest_uses hupkeep _ _

theorem approveAccessRequest_issues {record : AgentAccessRequest} {lifetime : PermissionLifetime}
    {authorizationDetails : List AuthorizationDetail} (approvalReasonCode : Option String)
    (now : Time) {again : Request DecidedAccessRequest} (hid : record.id = request.requestId)
    (hinput : request.input = .approve lifetime authorizationDetails)
    (hagain : again.Uses request.Issues) :
    (approveAccessRequest record lifetime authorizationDetails request.actorUserId
      approvalReasonCode now again).Uses request.Issues := by
  have hupkeep : ∀ c : Command, c.Upkeep → request.Issues c :=
    fun c => DecisionRequest.issues_upkeep
  have hread := hupkeep .read trivial
  apply Uses.bind_returns (prepareApproval_uses hupkeep _ _ _ _ _)
  · exact prepareApproval_returns record lifetime authorizationDetails request.actorUserId now
  · rintro ⟨context, connection⟩ hcontext
    apply uses_bind (uses_query.mpr hread)
    intro active
    apply uses_bind (Uses.mapEach fun scope => approveScope_uses hupkeep _ _ scope)
    intro plans
    apply Uses.bind_returns (resourceAuditRecord_uses hread (hupkeep .generateId trivial) _)
    · exact decisionAudit_returns record connection _ _ _ hid (by rw [hinput]; rfl)
    · intro audit haudit
      apply uses_bind
      · apply uses_perform.mpr
        refine ⟨?_, ⟨_, _, _, _, rfl⟩, ⟨lifetime, authorizationDetails, hinput⟩, haudit⟩
        change context.request.id = request.requestId
        rw [hcontext, hid]
      · intro outcome
        cases outcome with
        | resourceUnavailable => trivial
        | requestChanged => trivial
        | approved rows decided => exact decidedRequest_uses hupkeep _ _
        | entitlementsChanged =>
          apply uses_bind (uses_query.mpr hread)
          intro found
          split
          · exact decidedRequest_uses hupkeep _ _
          · exact hagain

theorem decideOnce_issues {again : Request DecidedAccessRequest}
    (hagain : again.Uses request.Issues) :
    (decideOnce request.requestId request.input request.actorUserId request.approvalReasonCode
      again).Uses request.Issues := by
  have hupkeep : ∀ c : Command, c.Upkeep → request.Issues c :=
    fun c => DecisionRequest.issues_upkeep
  apply Uses.bind_returns (requirePendingRequest_uses hupkeep _) (requirePendingRequest_returns _)
  intro record hid
  apply uses_bind (requireControlledRequestTarget_uses hupkeep _ _)
  intro connection
  apply uses_bind (uses_currentTime.mpr (hupkeep .read trivial))
  intro now
  cases hinput : request.input with
  | deny => exact denyAccessRequest_issues connection now hid hinput
  | approve lifetime details => exact approveAccessRequest_issues _ now hid hinput hagain

theorem decideAgentAccessRequest_issues :
    (decisionSystem.program request).Uses request.Issues :=
  decideOnce_issues (decideOnce_issues trivial)

end Programs

/-! ## What a command does to the decisions -/

namespace Database

variable {db db' : Database}

/-- A request is pending when it is found so. -/
theorem isPending_eq_find (h : Table.Keyed (·.id) db.agentAccessRequests) (id : String) :
    isPending id db = (db.findAccessRequest id).any (·.status = .pending) := by
  rw [Bool.eq_iff_iff]
  simp only [isPending, List.any_eq_true, Bool.and_eq_true, decide_eq_true_eq, Option.any_eq_true]
  constructor
  · rintro ⟨row, hrow, hid, hpending⟩
    cases hfind : db.findAccessRequest id with
    | none =>
      have hnone := List.find?_eq_none.mp hfind row hrow
      exact absurd (by simpa using hid) hnone
    | some found =>
      have hfound : found ∈ db.agentAccessRequests := List.mem_of_find?_eq_some hfind
      have hfoundId : found.id = id := by simpa using List.find?_some hfind
      have hsame : found = row := h.eq_of_key hfound hrow (hfoundId.trans hid.symm)
      exact ⟨found, rfl, hsame ▸ hpending⟩
  · rintro ⟨row, hfind, hpending⟩
    exact ⟨row, List.mem_of_find?_eq_some hfind, by simpa using List.find?_some hfind, hpending⟩

theorem findAccessRequest_update (db : Database) (id other : String)
    (decision : AccessRequestDecision) :
    (updateAccessRequestDecision id decision db).2.findAccessRequest other =
      (db.findAccessRequest other).map fun row =>
        if db.mayDecide id decision row then decision.apply row else row := by
  apply Table.find?_updateWhere
  intro row
  cases decision <;> rfl

end Database

/-- Nothing happens to the requests and to the trail. -/
def SameDecisions (db db' : Database) : Prop :=
  SameTables db db' .accessRequests ∧ SameTables db db' .auditEvents

/-- The decisions are as they were: a request that was decided stays decided, and the trail
has no new event of a decision. -/
structure KeepsDecisions (db db' : Database) : Prop where
  keyed : Table.Keyed (·.id) db.agentAccessRequests → Table.Keyed (·.id) db'.agentAccessRequests
  stands : ∀ id row, db.findAccessRequest id = some row →
    ∃ later, db'.findAccessRequest id = some later ∧
      ∀ input : DecideAgentAccessRequest, input.Stands row.status → input.Stands later.status
  decisions : ∀ id, db'.decisions id = db.decisions id

/-- One pending request is decided as the call says, and the trail has an event of it. -/
structure DecidesRequest (request : DecisionRequest) (db db' : Database) : Prop where
  keyed : Table.Keyed (·.id) db'.agentAccessRequests
  pending : Database.isPending request.requestId db = true
  decided : ∃ row, db'.findAccessRequest request.requestId = some row ∧
    request.input.Stands row.status
  others : ∀ id, id ≠ request.requestId → db'.findAccessRequest id = db.findAccessRequest id
  recorded : ∃ audit, request.Records audit ∧
    db'.agentAuditEvents = db.agentAuditEvents ++ [audit]

namespace KeepsDecisions

variable {db db' : Database}

/-- An update that lets every decision stand, and a trail without new decisions. -/
theorem of_update {selects : AgentAccessRequest → Bool}
    {sets : AgentAccessRequest → AgentAccessRequest}
    (hrequests : db'.agentAccessRequests = Table.updateWhere selects sets db.agentAccessRequests)
    (hid : ∀ row, (sets row).id = row.id)
    (hstands : ∀ (row : AgentAccessRequest) (input : DecideAgentAccessRequest),
      selects row = true → input.Stands row.status → input.Stands (sets row).status)
    (hdecisions : ∀ id, db'.decisions id = db.decisions id) : KeepsDecisions db db' where
  keyed h := by
    rw [hrequests]
    exact h.updateWhere hid
  decisions := hdecisions
  stands id row hfind := by
    have hafter : db'.findAccessRequest id = (db.findAccessRequest id).map fun row =>
        if selects row then sets row else row := by
      unfold Database.findAccessRequest
      rw [hrequests]
      apply Table.find?_updateWhere
      intro row
      rw [hid]
    refine ⟨if selects row then sets row else row, by rw [hafter, hfind]; rfl, ?_⟩
    intro input hinput
    split_ifs with hselects
    · exact hstands row input hselects hinput
    · exact hinput

theorem of_same (hrequests : db'.agentAccessRequests = db.agentAccessRequests)
    (hdecisions : ∀ id, db'.decisions id = db.decisions id) : KeepsDecisions db db' where
  keyed h := by
    rw [hrequests]
    exact h
  decisions := hdecisions
  stands id row hfind := by
    refine ⟨row, ?_, fun _ hinput => hinput⟩
    unfold Database.findAccessRequest
    rw [hrequests]
    exact hfind

end KeepsDecisions

theorem SameDecisions.keeps {db db' : Database} (h : SameDecisions db db') :
    KeepsDecisions db db' := by
  apply KeepsDecisions.of_same h.1
  intro id
  unfold Database.decisions
  rw [h.2]

namespace Database

variable {db db' : Database}

theorem decisions_recordAudit {audit : AgentAuditEvent} (h : audit.action ≠ accessDecided)
    (condition : Database → Bool) (id : String) :
    (recordAudit audit condition db).decisions id = db.decisions id := by
  unfold recordAudit decisions
  split_ifs
  · simp [h]
  · rfl

end Database

/-- Statements that decide nothing keep the decisions. -/
theorem keepsDecisions_statement {command : AccessCommand} (h : command.decides = false)
    (db : Database) : KeepsDecisions db (command.after db) := by
  have hother : TableGroup.accessRequests ∉ command.writes →
      TableGroup.auditEvents ∉ command.writes → KeepsDecisions db (command.after db) :=
    fun hrequests hevents =>
      SameDecisions.keeps ⟨command.after_same db hrequests, command.after_same db hevents⟩
  have hrefl : KeepsDecisions db db := .of_same rfl fun _ => rfl
  cases command with
  | decideAccessRequest id decision audit => cases h
  | approveAccessRequest approval => cases h
  | endEntitlementWithAudit id reason tokenLeaseIds now audit =>
    have haction : audit.action ≠ accessDecided := by simpa [AccessCommand.decides] using h
    apply KeepsDecisions.of_same
    · have hwrites : TableGroup.accessRequests ∉
          (AccessCommand.endEntitlementWithAudit id reason tokenLeaseIds now audit).writes := by
        simp [AccessCommand.writes]
      exact AccessCommand.after_same _ db hwrites
    · exact Database.decisions_recordAudit haction _
  | issueTokenLease lease boundary consumeEntitlementIds now audit =>
    have haction : audit.action ≠ accessDecided := by simpa [AccessCommand.decides] using h
    apply Statement.after_keeps (p := fun db' => KeepsDecisions db db') hrefl
    intro inserted db' hok
    obtain ⟨db₁, hinsert, rfl⟩ := Database.issueTokenLease_spends hok
    have hsame : db₁.agentAccessRequests = db.agentAccessRequests ∧
        ∀ id, db₁.decisions id = db.decisions id := by
      obtain ⟨-, -, rfl⟩ | ⟨-, -, rfl⟩ := Database.insertTokenLease_ok hinsert
      · exact ⟨rfl, fun _ => rfl⟩
      · exact ⟨rfl, fun _ => rfl⟩
    unfold Database.spendLease
    split_ifs
    · apply KeepsDecisions.of_update
      · rw [Database.recordAudit_agentAuditEvents, ← hsame.1]
        rfl
      · intro row
        rfl
      · intro row input hselects hinput
        simp only [Bool.and_eq_true, decide_eq_true_eq] at hselects
        cases input with
        | deny => simp [DecideAgentAccessRequest.Stands, hselects.2] at hinput
        | approve lifetime details => exact Or.inr rfl
      · intro id
        rw [Database.decisions_recordAudit haction, ← hsame.2]
        rfl
    · exact .of_same hsame.1 hsame.2
  | revokeAuthorizationsByConnector authorizationIds now =>
    apply Statement.after_keeps (p := fun db' => KeepsDecisions db db') hrefl
    intro answer db' hok
    obtain ⟨rows, rfl⟩ := Database.revokeAuthorizations_ok hok
    apply KeepsDecisions.of_update rfl
    · intro row
      rfl
    · intro row input hselects hinput
      exact hinput
    · intro id
      rfl
  | deleteResource id now audit =>
    have haction : { audit with resourceId := some id }.action ≠ accessDecided := by
      simpa [AccessCommand.decides] using h
    apply KeepsDecisions.of_update
    · change Table.updateWhere _ _ (Database.recordAudit _ _ db).agentAccessRequests = _
      rw [Database.recordAudit_agentAuditEvents]
    · intro row
      rfl
    · intro row input hselects hinput
      simp only [Bool.and_eq_true, decide_eq_true_eq] at hselects
      cases input <;> simp [DecideAgentAccessRequest.Stands, hselects.2] at hinput
    · intro other
      exact Database.decisions_recordAudit haction _ other
  | _ => exact hother (by simp [AccessCommand.writes]) (by simp [AccessCommand.writes])

theorem keepsDecisions_environment (event : DecisionEvent) (w : World) :
    KeepsDecisions w.db (event.apply w).db := by
  cases event with
  | elapse milliseconds => exact .of_same rfl fun _ => rfl
  | statement command => exact keepsDecisions_statement command.property w.db
  | configure db => exact .of_same rfl fun _ => rfl
  | createRequest row =>
    apply Statement.after_keeps (p := fun db' => KeepsDecisions w.db db')
    · exact .of_same rfl fun _ => rfl
    · intro inserted db' hok
      unfold Database.createAccessRequest at hok
      split_ifs at hok with hactive hid
      · cases hok
        refine ⟨?_, ?_, fun _ => rfl⟩
        · intro hkeyed
          apply hkeyed.append_singleton
          simpa using hid
        intro id old hfind
        refine ⟨old, ?_, fun _ hinput => hinput⟩
        change (_ ++ [row]).find? _ = _
        have hold : w.db.agentAccessRequests.find? (fun row => row.id = id) = some old := hfind
        rw [List.find?_append, hold]
        rfl
      · cases hok
        exact .of_same rfl fun _ => rfl

/-! ### The batches of a decision -/

section Batches

variable {db : Database} {request : DecisionRequest} {decision : AccessRequestDecision}

/-- A decision that is taken stands. -/
theorem DecisionRequest.Decides.stands (h : request.Decides decision) (row : AgentAccessRequest) :
    request.input.Stands (decision.apply row).status := by
  cases decision with
  | denied now =>
    rw [show request.input = .deny from h]
    exact rfl
  | approved rows connectionId details now =>
    obtain ⟨lifetime, details, hinput⟩ := h
    rw [hinput]
    exact Or.inl rfl

/-- A request that the decision selects is decided. The decision looks at the entitlements as
the batch has left them so far. -/
theorem decidesRequest_of_selected {middle final : Database} {row : AgentAccessRequest}
    {audit : AgentAuditEvent} (hkeyed : Table.Keyed (·.id) db.agentAccessRequests)
    (hdecides : request.Decides decision)
    (hmiddle : middle.agentAccessRequests = db.agentAccessRequests)
    (hrow : row ∈ db.agentAccessRequests)
    (hselected : middle.mayDecide request.requestId decision row = true)
    (hfinal : final.agentAccessRequests =
      (Database.updateAccessRequestDecision request.requestId decision middle).2.agentAccessRequests)
    (haudit : request.Records audit)
    (hevents : final.agentAuditEvents = db.agentAuditEvents ++ [audit]) :
    DecidesRequest request db final := by
  have hchecks := hselected
  simp only [Database.mayDecide, Bool.and_eq_true, decide_eq_true_eq] at hchecks
  obtain ⟨⟨hid, hpending⟩, -⟩ := hchecks
  have hafter : ∀ id, final.findAccessRequest id = (db.findAccessRequest id).map fun row =>
      if middle.mayDecide request.requestId decision row then decision.apply row else row := by
    intro id
    have hupdate := Database.findAccessRequest_update middle request.requestId id decision
    unfold Database.findAccessRequest at hupdate ⊢
    rw [hfinal, hupdate, hmiddle]
  refine ⟨?_, ?_, ?_, ?_, audit, haudit, hevents⟩
  · rw [hfinal]
    apply Table.Keyed.updateWhere
    · rw [hmiddle]
      exact hkeyed
    · intro row
      cases decision <;> rfl
  · exact List.any_eq_true.mpr ⟨row, hrow, by simp [hid, hpending]⟩
  · refine ⟨decision.apply row, ?_, hdecides.stands row⟩
    cases hfind : db.findAccessRequest request.requestId with
    | none => exact absurd (by simpa using hid) (List.find?_eq_none.mp hfind row hrow)
    | some found =>
      have hfound : found ∈ db.agentAccessRequests := List.mem_of_find?_eq_some hfind
      have hfoundId : found.id = request.requestId := by simpa using List.find?_some hfind
      obtain rfl : found = row := hkeyed.eq_of_key hfound hrow (hfoundId.trans hid.symm)
      rw [hafter, hfind]
      simp [hselected]
  · intro other hother
    rw [hafter]
    cases hfind : db.findAccessRequest other with
    | none => rfl
    | some found =>
      have hfoundId : found.id = other := by simpa using List.find?_some hfind
      simp [Database.mayDecide, hfoundId, hother]

/-- A decision that selects no request leaves the requests alone. -/
theorem requests_of_unselected
    (h : ∀ row ∈ db.agentAccessRequests, db.mayDecide request.requestId decision row = false) :
    (Database.updateAccessRequestDecision request.requestId decision db).2 = db := by
  have hrows : Table.updateWhere (db.mayDecide request.requestId decision) decision.apply
      db.agentAccessRequests = db.agentAccessRequests := by
    apply Table.updateWhere_eq_self
    intro row hrow hselected
    rw [h row hrow] at hselected
    cases hselected
  unfold Database.updateAccessRequestDecision
  rw [hrows]

theorem denial_decides {audit : AgentAuditEvent} {now : Time}
    (hkeyed : Table.Keyed (·.id) db.agentAccessRequests) (hdecides : request.Decides (.denied now))
    (haudit : request.Records audit) :
    let after := (AccessCommand.decideAccessRequest request.requestId (.denied now) audit).after db
    DecidesRequest request db after ∨ SameDecisions db after := by
  intro after
  have hafter : after = (Database.updateAccessRequestDecision request.requestId (.denied now)
      (Database.recordAudit audit (Database.isPending request.requestId) db)).2 := rfl
  by_cases hpending : Database.isPending request.requestId db = true
  · left
    have hrecorded : Database.recordAudit audit (Database.isPending request.requestId) db =
        { db with agentAuditEvents := db.agentAuditEvents ++ [audit] } := if_pos hpending
    obtain ⟨row, hrow, hselected⟩ := List.any_eq_true.mp hpending
    apply decidesRequest_of_selected hkeyed hdecides rfl hrow _ _ haudit
    · rw [hafter, hrecorded]
      rfl
    · simpa [Database.mayDecide] using hselected
    · rw [hafter, hrecorded]
      rfl
  · right
    have hnone : ∀ row ∈ db.agentAccessRequests,
        db.mayDecide request.requestId (.denied now) row = false := by
      intro row hrow
      rw [Bool.not_eq_true] at hpending
      have hnot := List.any_eq_false.mp hpending row hrow
      simpa [Database.mayDecide] using hnot
    have hrecorded : Database.recordAudit audit (Database.isPending request.requestId) db = db :=
      if_neg hpending
    rw [hafter, hrecorded, requests_of_unselected hnone]
    exact ⟨rfl, rfl⟩

/-- An approval decides a request that is not approved yet, or nothing. -/
theorem approval_decides {approval : Approval} {w : World}
    (hkeyed : Table.Keyed (·.id) w.db.agentAccessRequests)
    (hissues : request.Issues (.access (.approveAccessRequest approval)))
    (honce : Command.DecidesOnce (.access (.approveAccessRequest approval)) w) :
    let after := (AccessCommand.approveAccessRequest approval).after w.db
    DecidesRequest request w.db after ∨ SameDecisions w.db after := by
  obtain ⟨hid, ⟨rows, connectionId, details, now, hdecision⟩, hdecides, haudit⟩ := hissues
  dsimp only
  cases hs : (AccessCommand.approveAccessRequest approval).statement w.db with
  | error e =>
    right
    rw [AccessCommand.after_of_error hs]
    exact ⟨rfl, rfl⟩
  | ok result =>
    have hgranted : (Database.approveAccessRequestWithEntitlements approval).refuses w.db = false :=
      Statement.not_refuses_of_ok hs
    have hnot : Database.isApproved request.requestId w.db = false := by
      have happroved := honce.resolve_left (by simp [hgranted])
      rwa [hid] at happroved
    rw [AccessCommand.after_of_ok hs, Database.approveAccessRequest_ok hs, hid]
    generalize hmiddle : { w.db with
      resourceScopeEntitlements := Database.approvedRows approval w.db } = middle
    have hrequests : middle.agentAccessRequests = w.db.agentAccessRequests := by rw [← hmiddle]
    have hevents : middle.agentAuditEvents = w.db.agentAuditEvents := by rw [← hmiddle]
    by_cases hselected : ∃ row ∈ w.db.agentAccessRequests,
        middle.mayDecide request.requestId approval.decision row = true
    · left
      obtain ⟨row, hrow, hselected⟩ := hselected
      have happroved : Database.isApproved request.requestId
          (Database.updateAccessRequestDecision request.requestId approval.decision middle).2 =
            true := by
        have hmem := Table.mem_updateWhere_of_pos (f := approval.decision.apply)
          (hrequests ▸ hrow) hselected
        refine List.any_eq_true.mpr ⟨_, hmem, ?_⟩
        simp only [Database.mayDecide, Bool.and_eq_true, decide_eq_true_eq] at hselected
        simp [hdecision, AccessRequestDecision.apply, hselected.1.1]
      apply decidesRequest_of_selected hkeyed hdecides hrequests hrow hselected _ haudit
      · rw [Database.recordAudit, if_pos happroved, ← hevents]
        rfl
      · rw [Database.recordAudit, if_pos happroved]
    · right
      have hnone : ∀ row ∈ middle.agentAccessRequests,
          middle.mayDecide request.requestId approval.decision row = false := by
        intro row hrow
        rw [← Bool.not_eq_true]
        exact fun h => hselected ⟨row, hrequests ▸ hrow, h⟩
      have hunapproved : ¬ Database.isApproved request.requestId middle = true := by
        rw [Bool.not_eq_true]
        unfold Database.isApproved
        rw [hrequests]
        exact hnot
      rw [requests_of_unselected hnone, Database.recordAudit, if_neg hunapproved]
      exact ⟨hrequests, hevents⟩

/-- A command of a call decides the request of the call, or nothing. -/
theorem DecisionRequest.Issues.decides {c : Command} {w : World}
    (hissues : request.Issues c) (hkeyed : Table.Keyed (·.id) w.db.agentAccessRequests)
    (honce : c.DecidesOnce w) :
    DecidesRequest request w.db (exec c w).db ∨ SameDecisions w.db (exec c w).db := by
  have hupkeep : c.Upkeep → SameDecisions w.db (exec c w).db :=
    fun h => ⟨h.same w (by simp), h.same w (by simp)⟩
  cases c with
  | access command =>
    cases command with
    | decideAccessRequest id decision audit =>
      obtain ⟨rfl, ⟨now, rfl⟩, hdecides, haudit⟩ := hissues
      exact denial_decides hkeyed hdecides haudit
    | approveAccessRequest approval => exact approval_decides hkeyed hissues honce
    | _ => exact Or.inr (hupkeep hissues)
  | _ => exact Or.inr (hupkeep hissues)

end Batches

/-! ## What a step does to the trail -/

section Trail

variable {history : List (DecisionRequest × Command × World)} {db db' : Database} {id : String}

/-- A request that was decided is not pending. -/
theorem not_isPending_of_stands {input : DecideAgentAccessRequest} {row : AgentAccessRequest}
    (hkeyed : Table.Keyed (·.id) db.agentAccessRequests)
    (hfind : db.findAccessRequest id = some row) (hstands : input.Stands row.status) :
    Database.isPending id db = false := by
  rw [Database.isPending_eq_find hkeyed, hfind]
  cases input with
  | deny => simp [show row.status = .denied from hstands]
  | approve lifetime details =>
    obtain hstatus | hstatus := hstands
    · simp [hstatus]
    · simp [hstatus]

theorem TrailAgrees.keeps (h : TrailAgrees history db id) (hkeeps : KeepsDecisions db db') :
    TrailAgrees history db' id := by
  obtain ⟨hhistory, hnone⟩ | ⟨entry, event, hhistory, hone, hresult, hcontroller, row, hrow,
    hstands⟩ := h
  · exact Or.inl ⟨hhistory, (hkeeps.decisions id).trans hnone⟩
  · obtain ⟨later, hlater, hstill⟩ := hkeeps.stands id row hrow
    exact Or.inr ⟨entry, event, hhistory, (hkeeps.decisions id).trans hone, hresult, hcontroller,
      later, hlater, hstill _ hstands⟩

/-- A command that ends the pending status of no request adds nothing. -/
theorem TrailAgrees.passes {entry : DecisionRequest × Command × World}
    (h : TrailAgrees history db id) (hentry : EndsPending id entry = false) :
    TrailAgrees (history ++ [entry]) db id := by
  have hhistory : (history ++ [entry]).filter (EndsPending id) =
      history.filter (EndsPending id) := by
    simp [hentry]
  unfold TrailAgrees
  rw [hhistory]
  exact h

/-- The step of the command that decides the request. -/
theorem TrailAgrees.decides {request : DecisionRequest} {c : Command} {w : World}
    (hkeyed : Table.Keyed (·.id) w.db.agentAccessRequests)
    (h : TrailAgrees history w.db id) (hdecides : DecidesRequest request w.db (exec c w).db) :
    TrailAgrees (history ++ [(request, c, w)]) (exec c w).db id := by
  obtain ⟨audit, ⟨haction, hresult, hrequest, hcontroller⟩, hevents⟩ := hdecides.recorded
  by_cases hid : id = request.requestId
  · subst hid
    obtain ⟨row, hrow, hstands⟩ := hdecides.decided
    have hends : EndsPending request.requestId (request, c, w) = true := by
      have hafter := not_isPending_of_stands hdecides.keyed hrow hstands
      simp [EndsPending, hdecides.pending, hafter]
    obtain ⟨hhistory, hnone⟩ | ⟨_, _, -, -, -, -, old, hold, hdecided⟩ := h
    · right
      refine ⟨(request, c, w), audit, ?_, ?_, hresult, hcontroller, row, hrow, hstands⟩
      · rw [List.filter_append, hhistory]
        simp [hends]
      · unfold Database.decisions at hnone ⊢
        rw [hevents, List.filter_append, hnone]
        simp [haction, hrequest]
    · have hpending := hdecides.pending
      rw [not_isPending_of_stands hkeyed hold hdecided] at hpending
      cases hpending
  · have hfind := hdecides.others id hid
    have hsame : (exec c w).db.decisions id = w.db.decisions id := by
      unfold Database.decisions
      rw [hevents, List.filter_append]
      simp [hrequest, Ne.symm hid]
    apply TrailAgrees.passes
    · unfold TrailAgrees at h ⊢
      rw [hsame, hfind]
      exact h
    · rw [EndsPending, Database.isPending_eq_find hkeyed, Database.isPending_eq_find hdecides.keyed]
      simp [hfind]

end Trail

/-! ## Runs -/

theorem decisionPromises_sound [Platform] : decisionPromises.Sound decisionSystem where
  refl _ := trivial
  trans _ _ := trivial
  stable _ _ _ _ _ _ := trivial
  program request w _ :=
    decideAgentAccessRequest_issues.meets (fun _ hc _ _ => hc) (fun _ _ => trivial) w
  exec request c w hkeyed honce hissues := by
    refine ⟨?_, trivial⟩
    obtain hdecides | hsame := hissues.decides hkeyed honce
    · exact hdecides.keyed
    · exact hsame.keeps.keyed hkeyed
  environment event w hkeyed := ⟨(keepsDecisions_environment event w).keyed hkeyed, trivial⟩

/-- The trail agrees with the decisions: for each request whose pending status a call has ended
there is one event, with the outcome and the controller of that call, and the status of the
request is as that call decided; and there is no event of any other request. -/
def AuditAgrees (history : List (DecisionRequest × Command × World)) (db : Database) : Prop :=
  ∀ id, TrailAgrees history db id

/-- The trail agrees with the decisions in every state reached by a run in which each approval
that goes through executes while its request is not approved yet. -/
theorem audit_agrees [Platform] {w : World}
    (hkeyed : Table.Keyed (·.id) w.db.agentAccessRequests) (hnone : ∀ id, w.db.decisions id = [])
    {schedule : List (Action Reply DecisionRequest DecisionEvent)}
    (honce : ∀ entry ∈ (idle w).history decisionSystem schedule,
      entry.2.1.DecidesOnce entry.2.2) :
    AuditAgrees ((idle w).history decisionSystem schedule)
      ((idle w).run decisionSystem schedule).state.db := by
  apply decisionPromises_sound.recorded hkeyed (fun _ _ _ => trivial) honce
    (I := fun log t => AuditAgrees log t.db)
  · intro id
    exact Or.inl ⟨rfl, hnone id⟩
  · intro log request c t hkeyed honce hissues hagrees id
    obtain hdecides | hsame := DecisionRequest.Issues.decides hissues hkeyed honce
    · exact (hagrees id).decides hkeyed hdecides
    · apply ((hagrees id).keeps hsame.keeps).passes
      have hpending : Database.isPending id (exec c t).db = Database.isPending id t.db := by
        unfold Database.isPending
        rw [hsame.1]
      simp [EndsPending, hpending]
  · intro log event t _ hagrees id
    exact (hagrees id).keeps (keepsDecisions_environment event t)

/-! ## Two approvals of one request -/

namespace TwoApprovalsExample

attribute [local instance] samplePlatform

def resource : ApiResource :=
  { id := "files", identifier := "files", name := "Files", description := none
    resourceUrl := "https://files.example", authorizationModel := .native, connectorId := none
    authorizationDetails := [], enabled := true, ownerOrganizationId := "realm"
    visibility := .public
    scopeRegistry := some { scopes := [⟨"read", none, .automatic⟩] }
    availableToAgents := true, deletedAt := none, updatedAt := 0 }

def start : World :=
  { db :=
      { apiResources := [resource]
        agentIdentities := [
          { id := "agent", issuer := "https://realm.example", subject := "agent"
            ownerUserId := "ada", status := .active, deletedAt := none }]
        agentIdentityBindings := [
          { id := "binding", agentIdentityId := "agent", protocolAgentId := "protocol"
            hostId := "host", status := "active", revokedAt := none }]
        agentAccessRequests := [
          { id := "request", resourceId := "files", connectionId := none
            agentIdentityId := "agent", bindingId := "binding", scopes := ["read"]
            authorizationDetails := [nativeAuthority "user" "ada"], status := .pending
            approvedEntitlements := [], expiresAt := 1000, decidedAt := none, createdAt := 0
            updatedAt := 0 }] }
    clock := 10, nextId := 0 }

/-- The owner of the agent approves the request. -/
def approving : DecisionRequest :=
  { requestId := "request", input := .approve .persistent [nativeAuthority "user" "ada"]
    actorUserId := "ada" }

def steps (i count : ℕ) : List (Action Reply DecisionRequest DecisionEvent) :=
  List.replicate count (.advance i {})

/-- The second approval comes before the batch of the first. -/
def competing : List (Action Reply DecisionRequest DecisionEvent) :=
  [.start approving, .start approving] ++ steps 0 13 ++ steps 1 21 ++ steps 0 6

/-- The second approval comes after the first. -/
def inTurn : List (Action Reply DecisionRequest DecisionEvent) :=
  .start approving :: steps 0 21 ++ .start approving :: steps 1 21

/-- The first approval fails, and records an event all the same. -/
theorem audit_not_agrees :
    ¬ AuditAgrees ((idle start).history decisionSystem competing)
      ((idle start).run decisionSystem competing).state.db := by
  intro hagrees
  have htwo : (((idle start).run decisionSystem competing).state.db.decisions "request").length =
      2 := by decide +kernel
  obtain ⟨-, hnone⟩ | ⟨_, _, -, hone, -⟩ := hagrees "request"
  · simp [hnone] at htwo
  · simp [hone] at htwo

example : (((idle start).run decisionSystem competing).procs.map fun entry =>
    match entry.2.result? with
    | some (.error e) => decide (e = .badRequest "Agent access request was already decided.")
    | _ => false) = [true, false] := by decide +kernel

theorem audit_agrees_in_turn :
    AuditAgrees ((idle start).history decisionSystem inTurn)
      ((idle start).run decisionSystem inTurn).state.db := by
  have hkeyed : Table.Keyed (·.id) start.db.agentAccessRequests := List.nodup_singleton _
  exact audit_agrees hkeyed (fun _ => rfl) (by decide +kernel)

end TwoApprovalsExample

end Realmroot
