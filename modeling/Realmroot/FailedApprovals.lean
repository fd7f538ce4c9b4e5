import Realmroot.DecisionAudit

/-!
# Approvals that fail

The batch of an approval writes entitlements first and decides the request afterwards, each
statement under conditions of its own. Where the request cannot be approved any more, updates of
entitlements that live on go through all the same, and so does a new entitlement beside one that
has ended since it was read.
-/

namespace Realmroot

open AtomicProgram Program Pool

/-! ## What the batch does to an entitlement -/

/-- The entitlement after the updates of an approval that select it. -/
def ResourceScopeEntitlement.updatedBy (updates : List EntitlementUpdate)
    (row : ResourceScopeEntitlement) : ResourceScopeEntitlement :=
  updates.foldl (fun row update => if update.selects row then update.apply row else row) row

namespace Database

variable {db : Database} {approval : Approval}

theorem applyUpdates_eq_map (updates : List EntitlementUpdate)
    (rows : List ResourceScopeEntitlement) :
    applyUpdates updates rows = rows.map (·.updatedBy updates) := by
  induction updates generalizing rows with
  | nil => simp [applyUpdates, ResourceScopeEntitlement.updatedBy]
  | cons update updates ih =>
    have hrest := ih (Table.updateWhere update.selects update.apply rows)
    simp only [applyUpdates, List.foldl_cons] at hrest ⊢
    rw [hrest, Table.updateWhere, List.map_map]
    rfl

/-- What an approval looks at when it decides its request is not what an update changes. -/
structure SameClaims (row row' : ResourceScopeEntitlement) : Prop where
  id : row'.id = row.id
  agentIdentityId : row'.agentIdentityId = row.agentIdentityId
  resourceServerId : row'.resourceServerId = row.resourceServerId
  connectionId : row'.connectionId = row.connectionId
  scope : row'.scope = row.scope
  endedAt : row'.endedAt = row.endedAt

theorem sameClaims_updatedBy (updates : List EntitlementUpdate) (row : ResourceScopeEntitlement) :
    SameClaims row (row.updatedBy updates) := by
  induction updates generalizing row with
  | nil => exact ⟨rfl, rfl, rfl, rfl, rfl, rfl⟩
  | cons update updates ih =>
    have hfirst : SameClaims row (if update.selects row then update.apply row else row) := by
      split_ifs <;> exact ⟨rfl, rfl, rfl, rfl, rfl, rfl⟩
    have hrest := ih (if update.selects row then update.apply row else row)
    exact ⟨hrest.id.trans hfirst.id, hrest.agentIdentityId.trans hfirst.agentIdentityId,
      hrest.resourceServerId.trans hfirst.resourceServerId,
      hrest.connectionId.trans hfirst.connectionId, hrest.scope.trans hfirst.scope,
      hrest.endedAt.trans hfirst.endedAt⟩

/-- The database with the new entitlements of an approval that find room. -/
def withGrants (db : Database) (approval : Approval) : Database :=
  { db with
    resourceScopeEntitlements := db.resourceScopeEntitlements ++
      (insertEntitlements approval.requestId approval.entitlements db).1 }

theorem approvedRows_eq_map (approval : Approval) (db : Database) :
    approvedRows approval db =
      (db.withGrants approval).resourceScopeEntitlements.map
        (·.updatedBy approval.entitlementUpdates) :=
  applyUpdates_eq_map _ _

/-- The updates of an approval change nothing that its decision looks at. -/
theorem mayDecide_approvedRows (id : String) (decision : AccessRequestDecision)
    (request : AgentAccessRequest) :
    ({ db with resourceScopeEntitlements := approvedRows approval db } : Database).mayDecide id
        decision request =
      (db.withGrants approval).mayDecide id decision request := by
  have hfits : ∀ connectionId approved,
      ({ db with resourceScopeEntitlements := approvedRows approval db } :
        Database).approvedEntitlementFits request connectionId approved =
        (db.withGrants approval).approvedEntitlementFits request connectionId approved := by
    intro connectionId approved
    unfold approvedEntitlementFits findEntitlement
    rw [approvedRows_eq_map, List.find?_map]
    have hids : ((fun row : ResourceScopeEntitlement => decide (row.id = approved.entitlementId)) ∘
        (·.updatedBy approval.entitlementUpdates)) =
          fun row : ResourceScopeEntitlement => decide (row.id = approved.entitlementId) := by
      funext row
      simp [(sameClaims_updatedBy approval.entitlementUpdates row).id]
    rw [hids, Option.any_map]
    congr 1
    funext row
    have hsame := sameClaims_updatedBy approval.entitlementUpdates row
    simp [hsame.agentIdentityId, hsame.resourceServerId, hsame.connectionId, hsame.scope,
      hsame.endedAt]
  unfold mayDecide
  cases decision with
  | denied now => rfl
  | approved rows connectionId details now =>
    have hall := funext (hfits connectionId)
    simp only [hall]
    rfl

/-! ## When an approval is whole -/

/-- The new entitlement finds room: its request is pending, its resource and its connection are
active, and neither its id nor its key is taken. -/
def admits (db : Database) (requestId : String) (input : ResourceScopeEntitlement) : Bool :=
  db.canGrant input requestId && !db.conflicts (grantedRow input requestId)

/-- The request may still be approved: it is pending, its resource is active, and what it is to be
approved with lives, among the entitlements that are there and the new ones that find room. -/
def mayApprove (db : Database) (approval : Approval) : Bool :=
  db.agentAccessRequests.any
    ((db.withGrants approval).mayDecide approval.requestId approval.decision)

/-- The approval has nothing to write on entitlements: none of the new ones finds room, and what
its updates select is as they would leave it. -/
def nothingToGrant (db : Database) (approval : Approval) : Bool :=
  approval.entitlements.all (fun input => !db.admits approval.requestId input) &&
    db.resourceScopeEntitlements.all fun row =>
      row.updatedBy approval.entitlementUpdates = row

theorem insertEntitlements_eq_nil_iff {requestId : String}
    {inputs : List ResourceScopeEntitlement} :
    (insertEntitlements requestId inputs db).1 = [] ↔
      ∀ input ∈ inputs, db.admits requestId input = false := by
  induction inputs with
  | nil => simp [insertEntitlements]
  | cons input inputs ih =>
    by_cases hadmits : db.admits requestId input = true
    · have hinsert : (insertEntitlement requestId db input).1 =
          some (grantedRow input requestId) := congrArg Prod.fst (if_pos hadmits)
      simp [insertEntitlements, hinsert, hadmits]
    · have hinsert : insertEntitlement requestId db input = (none, db) := if_neg hadmits
      simp [insertEntitlements, hinsert, hadmits, ih]

/-- The batch leaves every entitlement alone when it has nothing to write, and only then. -/
theorem approvedRows_eq_self_iff :
    approvedRows approval db = db.resourceScopeEntitlements ↔
      db.nothingToGrant approval = true := by
  have hgrants : (insertEntitlements approval.requestId approval.entitlements db).1 = [] ↔
      ∀ input ∈ approval.entitlements, db.admits approval.requestId input = false :=
    insertEntitlements_eq_nil_iff
  rw [approvedRows_eq_map]
  simp only [nothingToGrant, Bool.and_eq_true, List.all_eq_true, Bool.not_eq_true',
    decide_eq_true_eq]
  constructor
  · intro h
    have hlength := congrArg List.length h
    have hnil : (insertEntitlements approval.requestId approval.entitlements db).1 = [] := by
      simp only [withGrants, List.length_map, List.length_append] at hlength
      exact List.length_eq_zero_iff.mp (by omega)
    refine ⟨hgrants.mp hnil, ?_⟩
    simp only [withGrants, hnil, List.append_nil] at h
    exact fun row hrow => List.map_inj_left.mp (h.trans (List.map_id _).symm) row hrow
  · rintro ⟨hnone, hsame⟩
    simp only [withGrants, hgrants.mpr hnone, List.append_nil]
    exact (List.map_inj_left.mpr hsame).trans (List.map_id _)

end Database

/-- The batch of an approval turns its request from pending to approved, or it leaves every
entitlement as it finds it. -/
def Command.AllOrNothing : Command → World → Prop
  | .access (.approveAccessRequest approval), w =>
    let after := (AccessCommand.approveAccessRequest approval).after w.db
    Database.isPending approval.requestId w.db = true ∧
        Database.isApproved approval.requestId after = true ∨
      after.resourceScopeEntitlements = w.db.resourceScopeEntitlements
  | _, _ => True

/-- A batch of an approval that is not refused finds that its request may be approved, or that
there is nothing to write on entitlements. -/
def Command.ApprovesInTime (command : Command) (w : World) : Prop :=
  ∀ approval ∈ command.approval?,
    (Database.approveAccessRequestWithEntitlements approval).refuses w.db = true ∨
      w.db.mayApprove approval = true ∨ w.db.nothingToGrant approval = true

instance (command : Command) (w : World) : Decidable (command.ApprovesInTime w) :=
  Option.decidableForallMem command.approval?

theorem Command.approvesInTime_approval {approval : Approval} {w : World} :
    (Command.access (.approveAccessRequest approval)).ApprovesInTime w ↔
      (Database.approveAccessRequestWithEntitlements approval).refuses w.db = true ∨
        w.db.mayApprove approval = true ∨ w.db.nothingToGrant approval = true := by
  simp [ApprovesInTime, approval?]

theorem Command.approvesInTime_of_none {command : Command} {w : World}
    (h : command.approval? = none) : command.ApprovesInTime w := by
  intro approval happroval
  rw [h] at happroval
  cases happroval

section Batches

variable {w : World} {approval : Approval} {request : DecisionRequest}

/-- An approval that goes through writes the entitlements and decides the request. -/
theorem approval_after {outcome : ApprovalOutcome} {db' : Database}
    (hok : Database.approveAccessRequestWithEntitlements approval w.db = .ok (outcome, db')) :
    db'.resourceScopeEntitlements = Database.approvedRows approval w.db ∧
      db'.agentAccessRequests =
        Table.updateWhere
          ((w.db.withGrants approval).mayDecide approval.requestId approval.decision)
          approval.decision.apply w.db.agentAccessRequests := by
  have hsame : ({ w.db with resourceScopeEntitlements := Database.approvedRows approval w.db } :
      Database).mayDecide approval.requestId approval.decision =
        (w.db.withGrants approval).mayDecide approval.requestId approval.decision :=
    funext fun row => Database.mayDecide_approvedRows _ _ row
  rw [Database.approveAccessRequest_ok hok, Database.recordAudit_agentAuditEvents, ← hsame]
  exact ⟨rfl, rfl⟩

/-- The request turns from pending to approved exactly when it may be approved. -/
theorem approval_turns_iff {outcome : ApprovalOutcome} {db' : Database}
    (hkeyed : Table.Keyed (·.id) w.db.agentAccessRequests)
    (happroves : ∃ rows connectionId details now,
      approval.decision = .approved rows connectionId details now)
    (hok : Database.approveAccessRequestWithEntitlements approval w.db = .ok (outcome, db')) :
    (Database.isPending approval.requestId w.db = true ∧
        Database.isApproved approval.requestId db' = true) ↔
      w.db.mayApprove approval = true := by
  obtain ⟨-, hrequests⟩ := approval_after hok
  obtain ⟨rows, connectionId, details, now, hdecision⟩ := happroves
  simp only [Database.isPending, Database.isApproved, Database.mayApprove, List.any_eq_true,
    Bool.and_eq_true, decide_eq_true_eq, hrequests]
  constructor
  · rintro ⟨⟨row, hrow, hid, hpending⟩, later, hlater, hlaterId, happroved⟩
    obtain ⟨old, hold, rfl⟩ := Table.mem_updateWhere.mp hlater
    split_ifs at hlaterId happroved with hselected
    · exact ⟨old, hold, hselected⟩
    · obtain rfl : old = row := hkeyed.eq_of_key hold hrow (hlaterId.trans hid.symm)
      rw [hpending] at happroved
      cases happroved
  · rintro ⟨row, hrow, hselected⟩
    have hchecks := hselected
    simp only [Database.mayDecide, Bool.and_eq_true, decide_eq_true_eq] at hchecks
    refine ⟨⟨row, hrow, hchecks.1⟩, _, Table.mem_updateWhere_of_pos hrow hselected, ?_⟩
    rw [hdecision]
    exact ⟨hchecks.1.1, rfl⟩

/-- A batch of an approval is all or nothing exactly when it comes in time. -/
theorem approval_allOrNothing_iff (hkeyed : Table.Keyed (·.id) w.db.agentAccessRequests)
    (happroves : ∃ rows connectionId details now,
      approval.decision = .approved rows connectionId details now) :
    (Command.access (.approveAccessRequest approval)).AllOrNothing w ↔
      (Command.access (.approveAccessRequest approval)).ApprovesInTime w := by
  change (Database.isPending approval.requestId w.db = true ∧
      Database.isApproved approval.requestId
        ((AccessCommand.approveAccessRequest approval).after w.db) = true ∨
      ((AccessCommand.approveAccessRequest approval).after w.db).resourceScopeEntitlements =
        w.db.resourceScopeEntitlements) ↔ _
  rw [Command.approvesInTime_approval]
  cases hs : Database.approveAccessRequestWithEntitlements approval w.db with
  | error e =>
    have hafter : (AccessCommand.approveAccessRequest approval).after w.db = w.db :=
      AccessCommand.after_of_error hs
    exact iff_of_true (Or.inr (by rw [hafter])) (Or.inl (Statement.refuses_of_error hs))
  | ok result =>
    obtain ⟨outcome, db'⟩ := result
    have hafter : (AccessCommand.approveAccessRequest approval).after w.db = db' :=
      AccessCommand.after_of_ok hs
    have hgoes := Statement.not_refuses_of_ok hs
    rw [hafter, approval_turns_iff hkeyed happroves hs, (approval_after hs).1,
      Database.approvedRows_eq_self_iff, hgoes]
    simp

/-- A command of a call is all or nothing exactly when it comes in time. -/
theorem DecisionRequest.Issues.allOrNothing_iff {command : Command}
    (hkeyed : Table.Keyed (·.id) w.db.agentAccessRequests) (hissues : request.Issues command) :
    command.AllOrNothing w ↔ command.ApprovesInTime w := by
  cases command with
  | access command =>
    cases command with
    | approveAccessRequest approval => exact approval_allOrNothing_iff hkeyed hissues.2.1
    | _ => exact iff_of_true trivial (Command.approvesInTime_of_none rfl)
  | _ => exact iff_of_true trivial (Command.approvesInTime_of_none rfl)

end Batches

/-! ## Runs -/

/-- A command of a call keeps one row for each request. -/
theorem DecisionRequest.Issues.keyed {w : World} {request : DecisionRequest} {command : Command}
    (hissues : request.Issues command) (hkeyed : Table.Keyed (·.id) w.db.agentAccessRequests) :
    Table.Keyed (·.id) (exec command w).db.agentAccessRequests := by
  have hdecided : ∀ (decision : AccessRequestDecision) (selects : AgentAccessRequest → Bool),
      Table.Keyed (·.id) (Table.updateWhere selects decision.apply w.db.agentAccessRequests) := by
    intro decision selects
    apply hkeyed.updateWhere
    intro row
    cases decision <;> rfl
  have hupkeep : command.Upkeep →
      Table.Keyed (·.id) (exec command w).db.agentAccessRequests := by
    intro h
    have hsame : SameTables w.db (exec command w).db .accessRequests := h.same w (by simp)
    exact (congrArg (Table.Keyed (·.id)) hsame).mpr hkeyed
  cases command with
  | access command =>
    cases command with
    | decideAccessRequest id decision audit =>
      have hrequests : (Database.recordAudit audit (Database.isPending id) w.db).agentAccessRequests
          = w.db.agentAccessRequests := by
        unfold Database.recordAudit
        split_ifs <;> rfl
      change Table.Keyed (·.id) (Table.updateWhere _ decision.apply
        (Database.recordAudit audit (Database.isPending id) w.db).agentAccessRequests)
      rw [hrequests]
      exact hdecided decision _
    | approveAccessRequest approval =>
      apply Statement.after_keeps (p := fun db => Table.Keyed (·.id) db.agentAccessRequests) hkeyed
      intro outcome db' hok
      rw [(approval_after hok).2]
      exact hdecided approval.decision _
    | _ => exact hupkeep hissues
  | _ => exact hupkeep hissues

/-- What a call issues, with one row for each request throughout. -/
def batchPromises : Promises Command World Reply Error DecidedAccessRequest DecisionRequest where
  inv w := Table.Keyed (·.id) w.db.agentAccessRequests
  moves _ _ := True
  cond _ _ _ := True
  promise request command _ := request.Issues command
  post _ _ _ := True

theorem batchPromises_sound [Platform] : batchPromises.Sound decisionSystem where
  refl _ := trivial
  trans _ _ := trivial
  stable _ _ _ _ _ _ := trivial
  program request w _ :=
    decideAgentAccessRequest_issues.meets (fun _ hc _ _ => hc) (fun _ _ => trivial) w
  exec _ _ _ hkeyed _ hissues := ⟨hissues.keyed hkeyed, trivial⟩
  environment event w hkeyed := ⟨(keepsDecisions_environment event w).keyed hkeyed, trivial⟩

/-- In any interleaving of decisions, the approvals that fail change no entitlement exactly when
each batch of an approval comes in time. -/
theorem failed_approvals_change_nothing [Platform] {w : World}
    {schedule : List (Action Reply DecisionRequest DecisionEvent)}
    (hkeyed : Table.Keyed (·.id) w.db.agentAccessRequests) :
    (∀ entry ∈ (idle w).history decisionSystem schedule, entry.2.1.AllOrNothing entry.2.2) ↔
      ∀ entry ∈ (idle w).history decisionSystem schedule,
        entry.2.1.ApprovesInTime entry.2.2 := by
  have hissued : ∀ entry ∈ (idle w).history decisionSystem schedule,
      Table.Keyed (·.id) entry.2.2.db.agentAccessRequests ∧
        entry.1.Issues entry.2.1 :=
    batchPromises_sound.history hkeyed (fun _ _ _ => trivial) fun _ _ => trivial
  apply forall₂_congr
  intro entry hentry
  obtain ⟨hkeyed, hissues⟩ := hissued entry hentry
  exact hissues.allOrNothing_iff hkeyed

namespace LateDenialExample

open TwoApprovalsExample

attribute [local instance] samplePlatform

/-- The agent already has the permission for a while. -/
def lent : ResourceScopeEntitlement :=
  { id := "lent", userId := none, applicationId := none, agentIdentityId := some "agent"
    organizationId := none, resourceServerId := "files", connectionId := none
    authorizationDetails := [nativeAuthority "user" "ada"]
    authorizationContextHash := contextHash [nativeAuthority "user" "ada"], scope := "read"
    mode := .until, grantedByUserId := some "ada", grantedByAgentIdentityId := none
    sourceAccessRequestId := none, expiresAt := some 500, endedAt := none, endReason := none
    createdAt := 0, updatedAt := 0 }

def lending : World := { start with db := { start.db with resourceScopeEntitlements := [lent] } }

def denying : DecisionRequest := { requestId := "request", input := .deny, actorUserId := "ada" }

/-- The denial commits between the reads of the approval and its batch. -/
def lateDenial : List (Action Reply DecisionRequest DecisionEvent) :=
  [.start approving, .start denying] ++ steps 0 12 ++ steps 1 20 ++ steps 0 20

/-- The request is denied, and the permission has become a lasting one. -/
example : (((idle lending).run decisionSystem lateDenial).state.db.resourceScopeEntitlements.map
    fun row => (row.mode, row.expiresAt)) = [(.persistent, none)] := by decide +kernel

theorem late_denial_changes : Table.Keyed (·.id) lending.db.agentAccessRequests ∧
    ¬ ∀ entry ∈ (idle lending).history decisionSystem lateDenial,
      entry.2.1.AllOrNothing entry.2.2 := by
  have hkeyed : Table.Keyed (·.id) lending.db.agentAccessRequests := List.nodup_singleton _
  refine ⟨hkeyed, fun h => ?_⟩
  have hlate := (failed_approvals_change_nothing hkeyed).mp h
  revert hlate
  decide +kernel

end LateDenialExample

end Realmroot
