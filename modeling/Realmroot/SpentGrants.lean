import Realmroot.DecisionAudit
import Realmroot.DirectGrants
import Realmroot.EntitlementSteps

/-!
# Entitlements that are spent

A token is issued from the entitlements that a request read at its beginning. The batch that
stores the lease looks at them again: at their ends, at what they are for, and at their expiry as
of the time of the read. It ends the entitlements that were read as usable once.
-/

namespace Realmroot

open AtomicProgram Program Pool ResourceScopeEntitlement

/-! ## The system -/

inductive PermissionCall where
  | issue (input : TargetTokenRequest) (principal : AgentResourcePrincipal)
      (signer : AgentAssertionSigner)
  | decide (decision : DecisionRequest)
  | grant (grant : DirectGrant)

inductive PermissionAnswer where
  | issued (token : TargetAccessToken)
  | decided (decided : DecidedAccessRequest)
  | granted (row : ResourceScopeEntitlement)

/-- The statements of leases and of grants. -/
def AccessCommand.grants : AccessCommand → Bool
  | approveAccessRequest .. => true
  | issueTokenLease .. => true
  | insertScopeEntitlement .. => true
  | replaceExpiredEntitlement .. => true
  | renewEntitlement .. => true
  | _ => false

/-- Time passes, permissions and connections are revoked and whatever else is not a lease or a
grant, and the tables other than those of entitlements and leases change in any way. -/
inductive PermissionEvent where
  | elapse (milliseconds : ℕ)
  | statement (command : { command : AccessCommand // command.grants = false })
  | configure (db : Database)

def PermissionEvent.apply : PermissionEvent → World → World
  | .elapse milliseconds, w => { w with clock := w.clock + milliseconds }
  | .statement command, w => exec (Command.access command.val) w
  | .configure db, w =>
    { w with
      db := { db with
        resourceScopeEntitlements := w.db.resourceScopeEntitlements
        externalTokenLeases := w.db.externalTokenLeases } }

def PermissionCall.program [Platform] : PermissionCall → Request PermissionAnswer
  | .issue input principal signer => do
    let token ← issueTargetAccessToken input principal signer
    .pure (.issued token)
  | .decide decision => do
    let decided ← decideAgentAccessRequest decision.requestId decision.input decision.actorUserId
      decision.approvalReasonCode
    .pure (.decided decided)
  | .grant given => do
    let row ← createScopeEntitlement given.input given.now
    .pure (.granted row)

def permissionSystem [Platform] :
    System Command World Reply Error PermissionAnswer PermissionCall PermissionEvent where
  program := PermissionCall.program
  environment := PermissionEvent.apply

/-! ## Leases -/

/-- The insert of a lease goes through, and finds its source. -/
def Database.insertsLease (lease : ExternalTokenLease)
    (boundary : TokenLeaseAuthorizationBoundary) (db : Database) : Bool :=
  match Database.insertTokenLease lease boundary db with
  | .ok (some _, _) => true
  | _ => false

/-- The command inserts a lease, and ends the entitlements that it is to spend. -/
def Command.Leases (command : Command) (w : World) (lease : ExternalTokenLease)
    (spent : List String) : Prop :=
  ∃ boundary now audit, command = .access (.issueTokenLease lease boundary spent now audit) ∧
    w.db.insertsLease lease boundary = true

/-- The command inserts a lease, and an entitlement ends with it. -/
def Command.Spends (command : Command) (w : World) (id : String) : Prop :=
  ∃ lease spent, command.Leases w lease spent ∧ id ∈ spent ∧ Database.isOpen id w.db = true

/-- No update of an approval that goes through makes an entitlement usable once that has become
more than that since it was read. -/
def Command.KeepsModes : Command → World → Prop
  | .access (.approveAccessRequest approval), w =>
    (Database.approveAccessRequestWithEntitlements approval).refuses w.db = true ∨
      ∀ update ∈ approval.entitlementUpdates, update.Preserves w.db
  | _, _ => True

theorem Command.keepsModes_iff {command : Command} {w : World} :
    (∀ approval ∈ command.approval?,
      (Database.approveAccessRequestWithEntitlements approval).refuses w.db = true ∨
        ∀ update ∈ approval.entitlementUpdates, update.Preserves w.db) ↔ command.KeepsModes w := by
  cases command with
  | access command => cases command <;> simp [KeepsModes, approval?]
  | _ => simp [KeepsModes, approval?]

instance (command : Command) (w : World) : Decidable (command.KeepsModes w) :=
  decidable_of_iff _ Command.keepsModes_iff

section Promises

variable [Platform]

/-- The lease was made from entitlements that live on in the table: they are the agent's, in the
context of the lease, and those among them that may be used once are to be spent. -/
def SuppliedBy (lease : ExternalTokenLease) (boundary : TokenLeaseAuthorizationBoundary)
    (spent : List String) (rows : List ResourceScopeEntitlement) : Prop :=
  ∃ entitlements : List ResourceScopeEntitlement,
    Table.Evolves (·.id) Remains entitlements rows ∧
      (∀ entitlement ∈ entitlements,
        entitlement.agentIdentityId = some boundary.agentIdentityId ∧
          exactAuthorizationDetails entitlement.authorizationDetails
            lease.authorizationDetails = true) ∧
      lease.entitlementIds = entitlements.map (·.id) ∧
      spent = onceEntitlementIds entitlements ∧ lease.scopes = boundary.scopes

/-- The commands of a call. -/
def PermissionCall.Issues (call : PermissionCall) (command : Command) (w : World) : Prop :=
  match call, command with
  | .issue .., .access (.issueTokenLease lease boundary spent _ _) =>
    SuppliedBy lease boundary spent w.db.resourceScopeEntitlements
  | .issue .., command => command.Upkeep
  | .decide decision, command => decision.Issues command
  | .grant _, command => command.GrantsDirectly

def permissionPromises : Promises Command World Reply Error PermissionAnswer PermissionCall where
  inv w := Table.Keyed (·.id) w.db.resourceScopeEntitlements
  moves s t := EntitlementsPersist s.db.resourceScopeEntitlements t.db.resourceScopeEntitlements
  cond _ command w := command.KeepsModes w
  promise := PermissionCall.Issues
  post _ _ _ := True

/-! ## What the commands leave of the entitlements -/

omit [Platform] in
theorem Command.Upkeep.persist {command : Command} (h : command.Upkeep) (w : World) :
    EntitlementsPersist w.db.resourceScopeEntitlements
      (exec command w).db.resourceScopeEntitlements := by
  have hsame : SameTables w.db (exec command w).db .entitlements := h.same w (by simp)
  rw [show (exec command w).db.resourceScopeEntitlements = w.db.resourceScopeEntitlements
    from hsame]
  exact .refl _

omit [Platform] in
theorem approval_persist {approval : Approval} {w : World}
    (h : Command.KeepsModes (.access (.approveAccessRequest approval)) w) :
    EntitlementsPersist w.db.resourceScopeEntitlements
      (exec (Command.access (.approveAccessRequest approval)) w).db.resourceScopeEntitlements := by
  obtain hrefused | hpreserves := h
  · have hsame : AccessCommand.after (.approveAccessRequest approval) w.db = w.db := by
      cases hs : Database.approveAccessRequestWithEntitlements approval w.db with
      | error e => exact AccessCommand.after_of_error hs
      | ok result =>
        rw [Statement.not_refuses_of_ok hs] at hrefused
        cases hrefused
    change EntitlementsPersist _
      (AccessCommand.after (.approveAccessRequest approval) w.db).resourceScopeEntitlements
    rw [hsame]
    exact .refl _
  · exact AccessCommand.persist_after (.approveAccessRequest approval) hpreserves

theorem PermissionCall.Issues.persist {call : PermissionCall} {command : Command} {w : World}
    (h : call.Issues command w) (hmodes : command.KeepsModes w) :
    EntitlementsPersist w.db.resourceScopeEntitlements
      (exec command w).db.resourceScopeEntitlements := by
  have hupkeep : command.Upkeep → EntitlementsPersist w.db.resourceScopeEntitlements
      (exec command w).db.resourceScopeEntitlements := fun h => h.persist w
  cases command with
  | access command =>
    have hplain : command.Preserves w.db → EntitlementsPersist w.db.resourceScopeEntitlements
        (exec (Command.access command) w).db.resourceScopeEntitlements :=
      command.persist_after
    cases command with
    | approveAccessRequest approval => exact approval_persist hmodes
    | renewEntitlement renewal =>
      cases call with
      | issue input principal signer => exact h.elim
      | decide decision => exact h.elim
      | grant given => exact hplain h
    | _ => exact hplain trivial
  | _ =>
    cases call with
    | issue input principal signer => exact hupkeep h
    | decide decision => exact hupkeep h
    | grant given => first | exact hupkeep h | exact h.elim

omit [Platform] in
theorem PermissionEvent.persist (event : PermissionEvent) (w : World) :
    EntitlementsPersist w.db.resourceScopeEntitlements
      (event.apply w).db.resourceScopeEntitlements := by
  cases event with
  | elapse milliseconds => exact .refl _
  | configure db => exact .refl _
  | statement command =>
    apply command.val.persist_after
    have hgrants := command.property
    cases hcommand : command.val with
    | approveAccessRequest approval => simp [hcommand, AccessCommand.grants] at hgrants
    | renewEntitlement renewal => simp [hcommand, AccessCommand.grants] at hgrants
    | _ => trivial

end Promises

/-! ## The programs -/

section Programs

variable [Platform] {call : PermissionCall} {w : World}

theorem quiet_upkeep (h : ∀ c : Command, c.Upkeep → ∀ t, call.Issues c t) :
    Quiet (permissionPromises.contract call) Command.Upkeep where
  refl _ := .refl _
  trans h h' := h.trans h'
  guarantee c hc t _ := h c hc t
  moves _ hc t _ := hc.persist t

theorem issues_upkeep {input : TargetTokenRequest} {principal : AgentResourcePrincipal}
    {signer : AgentAssertionSigner} (c : Command) (h : c.Upkeep) (t : World) :
    (PermissionCall.issue input principal signer).Issues c t := by
  cases c with
  | access command => cases command <;> first | exact h | exact h.elim
  | _ => exact h

/-- What `activeContextEntitlements` selects belongs to the agent, in the context. -/
theorem mem_activeContextEntitlements {request : AgentAccessRequest} {agentIdentityId : String}
    {now : Time} {db : Database} {entitlement : ResourceScopeEntitlement}
    (h : entitlement ∈ db.activeContextEntitlements request agentIdentityId now) :
    entitlement ∈ db.resourceScopeEntitlements ∧
      entitlement.agentIdentityId = some agentIdentityId ∧ entitlement.isActive now = true ∧
      inRequestContext request entitlement = true := by
  unfold Database.activeContextEntitlements Database.listActiveEntitlementsByAgent at h
  simp only [List.mem_insertionSort, List.mem_filter, Bool.and_eq_true, decide_eq_true_eq] at h
  exact ⟨h.1.1, h.1.2.1, h.1.2.2, h.2⟩

/-- What a token is issued from, as it lives on. -/
structure IssueContext.Supplied (context : IssueContext) (w : World) : Prop where
  remain : Table.Evolves (·.id) Remains context.entitlements w.db.resourceScopeEntitlements
  fit : ∀ entitlement ∈ context.entitlements,
    entitlement.agentIdentityId = some context.request.agentIdentityId ∧
      exactAuthorizationDetails entitlement.authorizationDetails
        context.request.authorizationDetails = true

theorem IssueContext.Supplied.persist {context : IssueContext} {t : World}
    (h : context.Supplied w)
    (hpersist : EntitlementsPersist w.db.resourceScopeEntitlements
      t.db.resourceScopeEntitlements) : context.Supplied t := by
  refine ⟨?_, h.fit⟩
  apply Table.Evolves.trans _ h.remain hpersist.remains
  exact fun _ _ _ => Remains.trans

section Issue

variable {input : TargetTokenRequest} {principal : AgentResourcePrincipal}
  {signer : AgentAssertionSigner} {context : IssueContext} {α β : Type}

/-- A part of an issuance that is not its batch. -/
theorem issue_bind {p : Request α} {next : α → Request β} {post : Except Error β → World → Prop}
    (hp : p.Uses Command.Upkeep) (h : context.Supplied w) (hpost : ∀ e t, post (.error e) t)
    (hok : ∀ a t, context.Supplied t → (next a).Meets
      (permissionPromises.contract (.issue input principal signer)) post t) :
    (p >>= next).Meets (permissionPromises.contract (.issue input principal signer)) post w := by
  apply (quiet_upkeep issues_upkeep).meets_bind hp
  · exact fun a t hwt => hok a t (h.persist hwt)
  · exact fun e t _ => hpost e t

theorem IssueContext.store_keeps (connection : Option ProviderResourceAuthorizationRecord)
    (token : IssuedToken) (now : Time) (h : context.Supplied w) :
    (context.store connection token now).Meets
      (permissionPromises.contract (.issue input principal signer)) (fun _ _ => True) w := by
  apply issue_bind (uses_generateId.mpr trivial) h fun _ _ => trivial
  intro leaseId t ht
  apply issue_bind uses_sealSecret ht fun _ _ => trivial
  intro encryptedAccessToken t ht
  apply issue_bind (resourceAuditRecord_uses trivial trivial _) ht fun _ _ => trivial
  intro audit t ht
  apply meets_execute
  intro s hts _
  have hs := ht.persist hts
  refine ⟨⟨context.entitlements, hs.remain, hs.fit, rfl, rfl, rfl⟩, ?_, fun _ _ => trivial⟩
  intro inserted db _
  unfold throwIf
  split_ifs <;> trivial

theorem issueNativeAccessToken_keeps (h : context.Supplied w) :
    (issueNativeAccessToken context input signer).Meets
      (permissionPromises.contract (.issue input principal signer)) (fun _ _ => True) w := by
  unfold issueNativeAccessToken
  apply issue_bind uses_throwIf h fun _ _ => trivial
  intro _ t ht
  apply issue_bind uses_throwIf ht fun _ _ => trivial
  intro _ t ht
  apply issue_bind (requireCurrentNativeAuthorityContext_uses (fun _ hc => hc) _ _) ht
    fun _ _ => trivial
  intro _ t ht
  apply issue_bind (validateDpopTokenProof_uses _ _) ht fun _ _ => trivial
  intro confirmationJkt t ht
  apply issue_bind (uses_currentTime.mpr trivial) ht fun _ _ => trivial
  intro now t ht
  apply issue_bind uses_ofResult ht fun _ _ => trivial
  intro _ t ht
  apply issue_bind (nativeGroups_uses (fun _ hc => hc) _) ht fun _ _ => trivial
  intro groups t ht
  apply issue_bind uses_randomString ht fun _ _ => trivial
  intro jti t ht
  apply issue_bind uses_ofResult ht fun _ _ => trivial
  intro bindingClaim t ht
  rw [Program.bind_eq, meets_bind]
  apply (IssueContext.store_keeps none _ now ht).mono
  rintro (e | _) u _ <;> trivial

theorem issueExternalAccessToken_keeps (now : Time) (h : context.Supplied w) :
    (issueExternalAccessToken context input signer now).Meets
      (permissionPromises.contract (.issue input principal signer)) (fun _ _ => True) w := by
  unfold issueExternalAccessToken
  apply issue_bind (externalGrant_uses (fun _ hc => hc) _) h fun _ _ => trivial
  intro grant t ht
  apply issue_bind (ensureClientScopes_uses (fun _ hc => hc) _ _ _) ht fun _ _ => trivial
  intro _ t ht
  apply issue_bind (findExternalAuthorization_uses trivial _ _) ht fun _ _ => trivial
  intro found t ht
  apply issue_bind uses_orThrow ht fun _ _ => trivial
  intro authorization t ht
  apply issue_bind uses_ofResult ht fun _ _ => trivial
  intro _ t ht
  apply issue_bind (validateDpopTokenProof_uses _ _) ht fun _ _ => trivial
  intro confirmationJkt t ht
  apply issue_bind (exchangeTargetToken_uses (fun _ hc => hc) _ _ _ _ _) ht fun _ _ => trivial
  rintro ⟨token, dpopNonce⟩ t ht
  apply issue_bind uses_ofResult ht fun _ _ => trivial
  rintro ⟨accessToken, expiresIn⟩ t ht
  dsimp only
  rw [Program.bind_eq, meets_bind]
  apply (IssueContext.store_keeps (some grant.connection) _ now ht).mono
  rintro (e | _) u _ <;> trivial

/-- The entitlements of an issuance are read from the table. -/
theorem issueContext_supplies :
    (issueContext input principal).Meets
      (permissionPromises.contract (.issue input principal signer))
      (onSuccess fun found t => found.1.Supplied t) w := by
  have hquiet : Quiet (permissionPromises.contract (.issue input principal signer))
      Command.Upkeep := quiet_upkeep issues_upkeep
  unfold issueContext
  apply hquiet.meets_bind uses_ofResult _ fun _ _ _ => trivial
  intro _ t _
  apply hquiet.meets_bind (uses_query.mpr trivial) _ fun _ _ _ => trivial
  intro found t _
  apply meets_orThrow
  · exact fun _ => trivial
  intro stored hstored
  have hagent := (Option.filter_eq_some_iff.mp hstored).2
  simp only [Bool.and_eq_true, decide_eq_true_eq] at hagent
  apply hquiet.meets_bind (uses_currentTime.mpr trivial) _ fun _ _ _ => trivial
  intro now t _
  apply meets_query
  intro u _ _
  refine ⟨trivial, ?_⟩
  let entitlements := u.db.activeContextEntitlements stored principal.identityId now
  have hread : ∀ resource, IssueContext.Supplied
      { request := servedRequest stored entitlements, entitlements := entitlements
        resource := resource, principal := principal } u := by
    intro resource
    constructor
    · intro entitlement hmem
      exact ⟨entitlement, (mem_activeContextEntitlements hmem).1, rfl, Remains.refl _⟩
    · intro entitlement hmem
      obtain ⟨-, hentitled, -, hcontext⟩ := mem_activeContextEntitlements hmem
      simp only [inRequestContext, Bool.and_eq_true] at hcontext
      refine ⟨?_, hcontext.2⟩
      rw [hentitled, ← hagent.1]
      rfl
  apply hquiet.meets_bind uses_throwIf _ fun _ _ _ => trivial
  intro _ v huv
  apply hquiet.meets_bind (uses_query.mpr trivial) _ fun _ _ _ => trivial
  intro foundResource x hvx
  apply hquiet.meets_bind uses_orThrow _ fun _ _ _ => trivial
  intro resource y hxy
  apply hquiet.meets_bind uses_ofResult _ fun _ _ _ => trivial
  intro _ z hyz
  apply hquiet.meets_bind (activeIdentityOrganizationIds_uses (fun _ hc => hc) _) _
    fun _ _ _ => trivial
  intro organizationIds a hza
  apply hquiet.meets_bind uses_throwIf _ fun _ _ _ => trivial
  intro _ b hab
  exact (hread resource).persist (huv.trans (hvx.trans (hxy.trans (hyz.trans (hza.trans hab)))))

theorem issueTargetAccessToken_keeps :
    (issueTargetAccessToken input principal signer).Meets
      (permissionPromises.contract (.issue input principal signer)) (fun _ _ => True) w := by
  unfold issueTargetAccessToken
  rw [Program.bind_eq, meets_bind]
  apply issueContext_supplies.mono
  rintro (e | ⟨context, now⟩) t h
  · trivial
  dsimp only [andThen]
  split_ifs
  · apply issue_bind (findConnectionWhen_uses trivial _) h fun _ _ => trivial
    intro connection t ht
    apply issue_bind uses_ofResult ht fun _ _ => trivial
    intro _ t ht
    exact issueNativeAccessToken_keeps ht
  · exact issueExternalAccessToken_keeps now h

end Issue

theorem permissionPromises_sound : permissionPromises.Sound permissionSystem where
  refl _ := .refl _
  trans h h' := h.trans h'
  stable _ _ _ _ _ _ := trivial
  program call w _ := by
    cases call with
    | issue input principal signer =>
      change Meets _ _ (Program.bind (issueTargetAccessToken input principal signer) _) w
      rw [Program.meets_bind]
      apply issueTargetAccessToken_keeps.mono
      rintro (e | token) t _ <;> trivial
    | decide decision =>
      have huses : ((PermissionCall.decide decision).program).Uses decision.Issues :=
        uses_bind decideAgentAccessRequest_issues fun _ => trivial
      exact huses.meets (fun _ hc _ _ => hc) (fun _ _ => trivial) w
    | grant given =>
      have huses : ((PermissionCall.grant given).program).Uses Command.GrantsDirectly :=
        uses_bind (createScopeEntitlement_grants _ _) fun _ => trivial
      exact huses.meets (fun _ hc _ _ => hc) (fun _ _ => trivial) w
  exec call command w hkeyed hmodes hissues := by
    have hpersist := PermissionCall.Issues.persist hissues hmodes
    exact ⟨hpersist.keyed hkeyed, hpersist⟩
  environment event w hkeyed := by
    have hpersist := event.persist w
    exact ⟨hpersist.keyed hkeyed, hpersist⟩

end Programs

/-! ## A lease that is inserted -/

section Inserted

variable {lease : ExternalTokenLease} {boundary : TokenLeaseAuthorizationBoundary}
  {spent : List String} {now : Time} {audit : AgentAuditEvent} {db : Database}

theorem insertsLease_ok (h : db.insertsLease lease boundary = true) :
    Database.insertTokenLease lease boundary db =
        .ok (some lease, { db with externalTokenLeases := db.externalTokenLeases ++ [lease] }) ∧
      ∃ request ∈ db.agentAccessRequests, db.canIssue lease boundary request = true := by
  unfold Database.insertsLease at h
  split at h
  · rename_i inserted db' hok
    obtain ⟨hnone, -⟩ | ⟨hsome, hissue, rfl⟩ := Database.insertTokenLease_ok hok
    · cases hnone
    · rw [Option.some.injEq] at hsome
      exact ⟨hsome ▸ hok, List.any_eq_true.mp hissue⟩
  · cases h

/-- The batch of an inserted lease ends what it spends. -/
theorem spends_ends {w : World} {command : Command} {id : String} (h : command.Spends w id) :
    ∃ row ∈ (exec command w).db.resourceScopeEntitlements,
      row.id = id ∧ row.endedAt.isSome = true := by
  obtain ⟨lease, spent, ⟨boundary, now, audit, rfl, hinserts⟩, hspent, hopen⟩ := h
  obtain ⟨row, hrow, hselected⟩ := List.any_eq_true.mp hopen
  simp only [Bool.and_eq_true, decide_eq_true_eq] at hselected
  have hinserted := (insertsLease_ok hinserts).1
  have hafter : (exec (Command.access (.issueTokenLease lease boundary spent now audit)) w).db =
      Database.spendLease lease spent now audit
        { w.db with externalTokenLeases := w.db.externalTokenLeases ++ [lease] } := by
    apply AccessCommand.after_of_ok (a := some lease)
    change (Database.insertTokenLease lease boundary w.db >>= _) = _
    rw [hinserted]
    rfl
  have hhas : Database.hasLease lease.id
      { w.db with externalTokenLeases := w.db.externalTokenLeases ++ [lease] } = true := by
    simp [Database.hasLease]
  rw [hafter, Database.spendLease, if_pos hhas, Database.recordAudit_agentAuditEvents]
  refine ⟨row.end .consumed now, ?_, hselected.1, rfl⟩
  apply Table.mem_updateWhere_of_pos hrow
  simp only [Bool.and_eq_true, List.contains_iff_mem]
  exact ⟨hselected.1 ▸ hspent, hselected.2⟩

end Inserted

/-! ## Leases carry live authority -/

section Live

variable [Platform]

/-- What a lease carries in the state in which it is inserted: each of its entitlements is active,
and is the agent's for the resource, the connection and the context of the lease; and the scopes of
the lease are theirs. -/
structure LiveAuthority (lease : ExternalTokenLease) (w : World) : Prop where
  entitlements : ∃ request ∈ w.db.agentAccessRequests, request.id = lease.requestId ∧
    ∀ id ∈ lease.entitlementIds, ∃ row, w.db.findEntitlement id = some row ∧
      row.isActive w.clock = true ∧ row.agentIdentityId = some request.agentIdentityId ∧
      row.resourceServerId = request.resourceId ∧ row.connectionId = request.connectionId ∧
      exactAuthorizationDetails row.authorizationDetails lease.authorizationDetails = true
  scopes : ∀ scope, scope ∈ lease.scopes ↔
    ∃ id ∈ lease.entitlementIds, ∃ row, w.db.findEntitlement id = some row ∧ row.scope = scope

/-- No entitlement of an inserted lease expires between the time of the read and the batch. -/
def Command.InTime : Command → World → Prop
  | .access (.issueTokenLease lease boundary _ _ _), w =>
    w.db.insertsLease lease boundary = true → ∀ id ∈ lease.entitlementIds,
      (w.db.findEntitlement id).all (fun row => row.expiresAt.all fun expiry =>
        expiry ≤ lease.createdAt || w.clock < expiry) = true
  | _, _ => True

instance (command : Command) (w : World) : Decidable (command.InTime w) := by
  unfold Command.InTime
  split <;> infer_instance

variable {call : PermissionCall} {command : Command} {w : World} {lease : ExternalTokenLease}
  {spent : List String}

theorem PermissionCall.Issues.suppliedBy {boundary : TokenLeaseAuthorizationBoundary} {now : Time}
    {audit : AgentAuditEvent}
    (h : call.Issues (.access (.issueTokenLease lease boundary spent now audit)) w) :
    SuppliedBy lease boundary spent w.db.resourceScopeEntitlements := by
  cases call with
  | issue input principal signer => exact h
  | decide decision => exact h.elim
  | grant given => exact h.elim

/-- The row of an id that a lease was made with, as the batch finds it. -/
theorem SuppliedBy.row {boundary : TokenLeaseAuthorizationBoundary}
    (h : SuppliedBy lease boundary spent w.db.resourceScopeEntitlements)
    (hkeyed : Table.Keyed (·.id) w.db.resourceScopeEntitlements) {id : String}
    {row : ResourceScopeEntitlement} (hid : id ∈ lease.entitlementIds)
    (hfound : w.db.findEntitlement id = some row) :
    row.agentIdentityId = some boundary.agentIdentityId ∧
      exactAuthorizationDetails row.authorizationDetails lease.authorizationDetails = true ∧
      (row.mode = .once → id ∈ spent) := by
  obtain ⟨entitlements, hremain, hfit, hids, hspent, -⟩ := h
  rw [hids] at hid
  obtain ⟨entitlement, hmem, hentitlement⟩ := List.mem_map.mp hid
  obtain ⟨later, hlater, hlaterId, hremains⟩ := hremain entitlement hmem
  have hrow : row ∈ w.db.resourceScopeEntitlements := List.mem_of_find?_eq_some hfound
  have hrowId : row.id = id := by simpa using List.find?_some hfound
  have hsame : later = row :=
    hkeyed.eq_of_key hlater hrow (hlaterId.trans (hentitlement.trans hrowId.symm))
  subst hsame
  obtain ⟨hagent, hdetails⟩ := hfit entitlement hmem
  refine ⟨hremains.agent.trans hagent, hremains.details ▸ hdetails, ?_⟩
  intro honce
  have hread : entitlement.mode = .once := by
    by_contra hlasting
    exact hremains.lasting hlasting honce
  rw [hspent]
  exact List.mem_map.mpr ⟨entitlement, List.mem_filter.mpr ⟨hmem, by simp [hread]⟩, hentitlement⟩

omit [Platform] in
/-- What the batch checks of an id that a lease was made with. -/
theorem fits_row {boundary : TokenLeaseAuthorizationBoundary} {db : Database} {id : String}
    (h : db.suppliedEntitlementFits boundary lease.createdAt id = true) :
    ∃ row, db.findEntitlement id = some row ∧ row.resourceServerId = boundary.resourceServerId ∧
      row.connectionId = boundary.connectionId ∧ row.endedAt = none ∧
      row.expiresAt.all (lease.createdAt < ·) = true ∧ row.scope ∈ boundary.scopes := by
  obtain ⟨row, hfound, hfits⟩ := (Option.any_eq_true _ _).mp h
  simp only [Bool.and_eq_true, decide_eq_true_eq, Option.isNone_iff_eq_none,
    List.contains_iff_mem] at hfits
  obtain ⟨⟨⟨⟨⟨⟨-, hresource⟩, hconnection⟩, -⟩, hended⟩, hexpires⟩, hscope⟩ := hfits
  exact ⟨row, hfound, hresource, hconnection, hended, hexpires, hscope⟩

/-- A lease that is inserted in time carries live authority, and spends what may be used once. -/
theorem Command.Leases.live (h : command.Leases w lease spent) (hissues : call.Issues command w)
    (hkeyed : Table.Keyed (·.id) w.db.resourceScopeEntitlements) (htime : command.InTime w) :
    LiveAuthority lease w ∧ ∀ id ∈ lease.entitlementIds, ∀ row,
      w.db.findEntitlement id = some row → row.mode = .once → command.Spends w id := by
  obtain ⟨boundary, now, audit, rfl, hinserts⟩ := h
  obtain ⟨-, request, hrequest, hissue⟩ := insertsLease_ok hinserts
  have hsupplied := hissues.suppliedBy
  unfold Database.canIssue at hissue
  simp only [Bool.and_eq_true, decide_eq_true_eq, List.all_eq_true] at hissue
  obtain ⟨⟨⟨⟨⟨⟨⟨⟨⟨hid, -⟩, hagent⟩, hresource⟩, hconnection⟩, -⟩, hfits⟩, hscopes⟩, -⟩, -⟩ := hissue
  have hlease : lease.scopes = boundary.scopes := by
    obtain ⟨entitlements, -, -, -, -, hlease⟩ := hsupplied
    exact hlease
  refine ⟨⟨⟨request, hrequest, hid, ?_⟩, ?_⟩, ?_⟩
  · intro id hmem
    obtain ⟨row, hfound, hrowResource, hrowConnection, hended, hexpires, -⟩ :=
      fits_row (hfits id hmem)
    obtain ⟨hrowAgent, hdetails, -⟩ := hsupplied.row hkeyed hmem hfound
    refine ⟨row, hfound, ?_, hrowAgent.trans (by rw [hagent]), hrowResource.trans hresource.symm,
      hrowConnection.trans hconnection.symm, hdetails⟩
    rw [isActive_iff]
    refine ⟨hended, ?_⟩
    have hlasts := htime hinserts id hmem
    rw [hfound, Option.all_some] at hlasts
    cases hexpiry : row.expiresAt with
    | none => rfl
    | some expiry =>
      simp only [hexpiry, Option.all_some, decide_eq_true_eq, Bool.or_eq_true] at hexpires hlasts ⊢
      exact hlasts.resolve_left (Nat.not_le_of_lt hexpires)
  · intro scope
    rw [hlease]
    constructor
    · intro hscope
      obtain ⟨id, hmem, hrow⟩ := List.any_eq_true.mp (hscopes scope hscope)
      obtain ⟨row, hfound, hscope⟩ := (Option.any_eq_true _ _).mp hrow
      exact ⟨id, hmem, row, hfound, by simpa using hscope⟩
    · rintro ⟨id, hmem, row, hfound, rfl⟩
      obtain ⟨found, hsame, -, -, -, -, hscope⟩ := fits_row (hfits id hmem)
      rw [hfound, Option.some.injEq] at hsame
      exact hsame ▸ hscope
  · intro id hmem row hfound honce
    obtain ⟨found, hsame, -, -, hended, -, -⟩ := fits_row (hfits id hmem)
    rw [hfound, Option.some.injEq] at hsame
    subst hsame
    obtain ⟨-, -, hspent⟩ := hsupplied.row hkeyed hmem hfound
    refine ⟨lease, spent, ⟨boundary, now, audit, rfl, hinserts⟩, hspent honce, ?_⟩
    apply List.any_eq_true.mpr
    refine ⟨row, List.mem_of_find?_eq_some hfound, ?_⟩
    have hrowId : row.id = id := by simpa using List.find?_some hfound
    simp [hrowId, hended]

/-! ## Runs -/

/-- The entitlement has ended. -/
def Database.HasEnded (db : Database) (id : String) : Prop :=
  ∃ row ∈ db.resourceScopeEntitlements, row.id = id ∧ row.endedAt.isSome = true

omit [Platform] in
theorem Database.HasEnded.persist {db db' : Database} {id : String} (h : db.HasEnded id)
    (hpersist : EntitlementsPersist db.resourceScopeEntitlements db'.resourceScopeEntitlements) :
    db'.HasEnded id := by
  obtain ⟨row, hrow, hid, hended⟩ := h
  obtain ⟨later, hlater, hlaterId, hremains⟩ := hpersist.remains row hrow
  exact ⟨later, hlater, hlaterId.trans hid, hremains.ended hended⟩

omit [Platform] in
theorem Database.HasEnded.not_spends {id : String} (h : w.db.HasEnded id)
    (hkeyed : Table.Keyed (·.id) w.db.resourceScopeEntitlements) : ¬ command.Spends w id := by
  rintro ⟨lease, spent, -, -, hopen⟩
  obtain ⟨row, hrow, hid, hended⟩ := h
  obtain ⟨other, hother, hselected⟩ := List.any_eq_true.mp hopen
  simp only [Bool.and_eq_true, decide_eq_true_eq, Option.isNone_iff_eq_none] at hselected
  have hsame : row = other := hkeyed.eq_of_key hrow hother (hid.trans hselected.1.symm)
  rw [hsame, hselected.2] at hended
  cases hended

/-- No entitlement is spent by two leases; and each lease carries live authority when it is
inserted, and spends the entitlements that may be used once. -/
def SpentOnce (history : List (PermissionCall × Command × World)) : Prop :=
  (∀ id, history.Pairwise fun first second =>
    ¬ (first.2.1.Spends first.2.2 id ∧ second.2.1.Spends second.2.2 id)) ∧
  ∀ entry ∈ history, ∀ lease spent, entry.2.1.Leases entry.2.2 lease spent →
    LiveAuthority lease entry.2.2 ∧ ∀ id ∈ lease.entitlementIds, ∀ row,
      entry.2.2.db.findEntitlement id = some row → row.mode = .once →
        entry.2.1.Spends entry.2.2 id

/-- An entitlement that was spent has ended since. -/
structure SpentSoFar (log : List (PermissionCall × Command × World)) (w : World) : Prop where
  apart : ∀ id, log.Pairwise fun first second =>
    ¬ (first.2.1.Spends first.2.2 id ∧ second.2.1.Spends second.2.2 id)
  ended : ∀ id, ∀ entry ∈ log, entry.2.1.Spends entry.2.2 id → w.db.HasEnded id

/-- One more command: what it spends had not ended. -/
theorem SpentSoFar.passes {log : List (PermissionCall × Command × World)} (h : SpentSoFar log w)
    (hkeyed : Table.Keyed (·.id) w.db.resourceScopeEntitlements) (hissues : call.Issues command w)
    (hmodes : command.KeepsModes w) :
    SpentSoFar (log ++ [(call, command, w)]) (exec command w) := by
  constructor
  · intro id
    rw [List.pairwise_append]
    refine ⟨h.apart id, List.pairwise_singleton _ _, ?_⟩
    rintro first hfirst second hsecond ⟨hspent, hagain⟩
    rw [List.mem_singleton.mp hsecond] at hagain
    exact (h.ended id first hfirst hspent).not_spends hkeyed hagain
  · intro id entry hentry hspent
    rcases List.mem_append.mp hentry with hold | hnew
    · exact (h.ended id entry hold hspent).persist (hissues.persist hmodes)
    · rw [List.mem_singleton.mp hnew] at hspent
      exact spends_ends hspent

/-- Entitlements are spent once, and leases carry live authority, in every run in which no approval
makes an entitlement usable once again that was strengthened since it was read, and no entitlement
expires between the time of the read and the batch that inserts its lease. -/
theorem entitlements_spent_once (hkeyed : Table.Keyed (·.id) w.db.resourceScopeEntitlements)
    (schedule : List (Action Reply PermissionCall PermissionEvent))
    (hmodes : ∀ entry ∈ (idle w).history permissionSystem schedule,
      entry.2.1.KeepsModes entry.2.2)
    (htime : ∀ entry ∈ (idle w).history permissionSystem schedule,
      entry.2.1.InTime entry.2.2) :
    SpentOnce ((idle w).history permissionSystem schedule) := by
  have hspent : SpentSoFar ((idle w).history permissionSystem schedule)
      ((idle w).run permissionSystem schedule).state := by
    apply permissionPromises_sound.recorded hkeyed (fun _ _ _ => trivial) hmodes
    · exact ⟨fun _ => List.Pairwise.nil, fun _ _ hmem => absurd hmem List.not_mem_nil⟩
    · intro log call command t hkeyed hmodes hissues h
      exact h.passes hkeyed hissues hmodes
    · intro log event t _ h
      exact ⟨h.apart, fun id entry hentry hspends =>
        (h.ended id entry hentry hspends).persist (event.persist t)⟩
  have hhistory := permissionPromises_sound.history hkeyed (fun _ _ _ => trivial) hmodes
  refine ⟨hspent.apart, ?_⟩
  intro entry hentry lease spent hleases
  obtain ⟨hkeyed, hissues⟩ := hhistory entry hentry
  exact hleases.live hissues hkeyed (htime entry hentry)

/-! ## Strengthened entitlements -/

/-- The grant whose answer this is names the entitlement. -/
def PermissionAnswer.names : PermissionAnswer → String → Prop
  | .issued _, _ => False
  | .decided answer, name => name ∈ answer.record.approvedEntitlements.map (·.entitlementId)
  | .granted row, name => row.id = name

/-- A grant that names the entitlement has returned, and the entitlement may be used more than
once. -/
def Acknowledged (P : Pool Command World Reply Error PermissionAnswer PermissionCall)
    (id : String) : Prop :=
  (∃ entry ∈ P.procs, ∃ answer, entry.2.result? = some (.ok answer) ∧ answer.names id) ∧
    ∃ row ∈ P.state.db.resourceScopeEntitlements, row.id = id ∧ row.mode ≠ .once

/-- After a grant that strengthens an entitlement has returned, no lease spends it. -/
def UpgradesKept (w : World) (schedule : List (Action Reply PermissionCall PermissionEvent)) :
    Prop :=
  ∀ before after, schedule = before ++ after → ∀ id,
    Acknowledged ((idle w).run permissionSystem before) id →
      ∀ entry ∈ ((idle w).run permissionSystem before).history permissionSystem after,
        ¬ entry.2.1.Spends entry.2.2 id

/-- What an inserted lease spends may be used only once, as it was read. -/
def Command.SpendsWhatItRead : Command → World → Prop
  | .access (.issueTokenLease lease boundary spent _ _), w =>
    w.db.insertsLease lease boundary = true → ∀ id ∈ spent,
      (w.db.findEntitlement id).all (fun row => row.mode = .once) = true
  | _, _ => True

instance (command : Command) (w : World) : Decidable (command.SpendsWhatItRead w) := by
  unfold Command.SpendsWhatItRead
  split <;> infer_instance

omit [Platform] in
theorem not_spends_of_lasting {id : String} {row : ResourceScopeEntitlement}
    (hkeyed : Table.Keyed (·.id) w.db.resourceScopeEntitlements)
    (hrow : row ∈ w.db.resourceScopeEntitlements) (hid : row.id = id) (hlasting : row.mode ≠ .once)
    (hread : command.SpendsWhatItRead w) : ¬ command.Spends w id := by
  rintro ⟨lease, spent, ⟨boundary, now, audit, rfl, hinserts⟩, hspent, -⟩
  have honce := hread hinserts id hspent
  have hfound : w.db.findEntitlement id ≠ none := by
    intro hnone
    have hnot := List.find?_eq_none.mp hnone row hrow
    exact hnot (by simpa using hid)
  obtain ⟨found, hfound⟩ := Option.ne_none_iff_exists'.mp hfound
  have hmem : found ∈ w.db.resourceScopeEntitlements := List.mem_of_find?_eq_some hfound
  have hfoundId : found.id = id := by simpa using List.find?_some hfound
  have hsame : found = row := hkeyed.eq_of_key hmem hrow (hfoundId.trans hid.symm)
  rw [hfound, hsame, Option.all_some] at honce
  exact hlasting (by simpa using honce)

/-- Strengthened entitlements are kept in every run in which no approval makes an entitlement
usable once that was strengthened since it was read, and no lease spends one that was. -/
theorem upgrades_kept (hkeyed : Table.Keyed (·.id) w.db.resourceScopeEntitlements)
    (schedule : List (Action Reply PermissionCall PermissionEvent))
    (hmodes : ∀ entry ∈ (idle w).history permissionSystem schedule,
      entry.2.1.KeepsModes entry.2.2)
    (hread : ∀ entry ∈ (idle w).history permissionSystem schedule,
      entry.2.1.SpendsWhatItRead entry.2.2) :
    UpgradesKept w schedule := by
  rintro before after rfl id ⟨-, row, hrow, hid, hlasting⟩ entry hentry
  let P := (idle w).run permissionSystem before
  have hadmits : Throughout permissionSystem permissionPromises.steps.Admits (idle w)
      (before ++ after) := Stepwise.throughout_admits (fun _ _ _ => trivial) hmodes
  obtain ⟨hP, hafter⟩ := (Promises.inv_idle hkeyed).reaches permissionPromises_sound hadmits
  -- the row lives on in every state in which a later command executes
  have hlives := (hP.recorded permissionPromises_sound hafter
    (I := fun log t =>
      EntitlementsPersist P.state.db.resourceScopeEntitlements t.db.resourceScopeEntitlements ∧
        ∀ entry ∈ log, Table.Keyed ResourceScopeEntitlement.id
            entry.2.2.db.resourceScopeEntitlements ∧
          EntitlementsPersist P.state.db.resourceScopeEntitlements
            entry.2.2.db.resourceScopeEntitlements)
    (fun log call command t hkeyed hmodes hissues h => by
      refine ⟨h.1.trans (PermissionCall.Issues.persist hissues hmodes), ?_⟩
      intro entry hentry
      rcases List.mem_append.mp hentry with hold | hnew
      · exact h.2 entry hold
      · rw [List.mem_singleton.mp hnew]
        exact ⟨hkeyed, h.1⟩)
    (fun log event t _ h => ⟨h.1.trans (event.persist t), h.2⟩)
    [] ⟨.refl _, fun _ hmem => absurd hmem List.not_mem_nil⟩).2.2
  obtain ⟨hkeyedThen, hpersist⟩ := hlives entry (by simpa using hentry)
  obtain ⟨later, hlater, hlaterId, hremains⟩ := hpersist.remains row hrow
  apply not_spends_of_lasting hkeyedThen hlater (hlaterId.trans hid) (hremains.lasting hlasting)
  apply hread
  rw [history_append]
  exact List.mem_append_right _ hentry

end Live

/-! ## A lease that comes late, and one that spends too much -/

namespace SpentGrantExample

attribute [local instance] samplePlatform

def entitlement (mode : EntitlementMode) (expiresAt : Option Time) : ResourceScopeEntitlement :=
  { id := "entitlement", userId := none, applicationId := none
    agentIdentityId := some "agent", organizationId := none, resourceServerId := "files"
    connectionId := none, authorizationDetails := [nativeAuthority "user" "ada"]
    authorizationContextHash := contextHash [nativeAuthority "user" "ada"], scope := "read"
    mode := mode, grantedByUserId := some "ada", grantedByAgentIdentityId := none
    sourceAccessRequestId := some "request", expiresAt := expiresAt, endedAt := none
    endReason := none, createdAt := 0, updatedAt := 0 }

def principal : AgentResourcePrincipal :=
  { issuer := "https://realm.example", subject := "agent", identityId := "agent"
    protocolAgentId := "protocol", hostId := "host", runtime := none, sessionId := none
    identity :=
      { id := "agent", issuer := "https://realm.example", subject := "agent"
        ownerUserId := "ada", status := .active, deletedAt := none }
    binding :=
      { id := "binding", agentIdentityId := "agent", protocolAgentId := "protocol"
        hostId := "host", status := "active", revokedAt := none } }

def issue : PermissionCall :=
  .issue
    { requestId := "request", dpopProof := "proof"
      tokenRequestUrl := "https://realm.example/token"
      tokenRequestOrigin := "https://realm.example" }
    principal { issuer := "https://realm.example", sign := fun _ _ => "token" }

/-- At 10, with an approved request and one entitlement. -/
def start (row : ResourceScopeEntitlement) : World :=
  { db :=
      { apiResources := [TwoApprovalsExample.resource]
        agentIdentities := [principal.identity]
        agentAccessRequests := [
          { id := "request", resourceId := "files", connectionId := none
            agentIdentityId := "agent", bindingId := "binding", scopes := ["read"]
            authorizationDetails := [nativeAuthority "user" "ada"], status := .approved
            approvedEntitlements := [{ scope := "read", entitlementId := "entitlement" }]
            expiresAt := 1000, decidedAt := some 0, createdAt := 0, updatedAt := 0 }]
        resourceScopeEntitlements := [row] }
    clock := 10, nextId := 0 }

def steps (i count : ℕ) : List (Action Reply PermissionCall PermissionEvent) :=
  List.replicate count (.advance i { header := some "thumbprint" })

/-- A test of what a command inserts as a lease and ends with it. -/
def storesLease (command : Command) (w : World)
    (test : ExternalTokenLease → List String → Bool) : Bool :=
  match command with
  | .access (.issueTokenLease lease boundary spent _ _) =>
    w.db.insertsLease lease boundary && test lease spent
  | _ => false

theorem leases_of_storesLease {command : Command} {w : World}
    {test : ExternalTokenLease → List String → Bool} (h : storesLease command w test = true) :
    ∃ lease spent, command.Leases w lease spent ∧ test lease spent = true := by
  unfold storesLease at h
  split at h
  · rename_i lease boundary spent now audit
    rw [Bool.and_eq_true] at h
    exact ⟨lease, spent, ⟨boundary, now, audit, rfl, h.1⟩, h.2⟩
  · cases h

/-- The entitlement expires just before the batch. -/
def late : List (Action Reply PermissionCall PermissionEvent) :=
  .start issue :: steps 0 14 ++ .environment (.elapse 90) :: steps 0 1

theorem lease_not_live :
    ¬ SpentOnce ((idle (start (entitlement .until (some 100)))).history permissionSystem late) := by
  rintro ⟨-, hlive⟩
  have hexpired : ((idle (start (entitlement .until (some 100)))).history permissionSystem
      late).any (fun entry => storesLease entry.2.1 entry.2.2 fun lease _ =>
        lease.entitlementIds.any fun id =>
          (entry.2.2.db.findEntitlement id).any fun row => !row.isActive entry.2.2.clock) =
        true := by decide +kernel
  obtain ⟨⟨call, command, w⟩, hentry, hstores⟩ := List.any_eq_true.mp hexpired
  obtain ⟨lease, spent, hleases, hexpired⟩ := leases_of_storesLease hstores
  obtain ⟨id, hid, hrow⟩ := List.any_eq_true.mp hexpired
  obtain ⟨row, hfound, hrow⟩ := (Option.any_eq_true _ _).mp hrow
  obtain ⟨request, -, -, hactive⟩ := (hlive _ hentry lease spent hleases).1.entitlements
  obtain ⟨found, hsame, hfoundActive, -⟩ := hactive id hid
  rw [hfound, Option.some.injEq] at hsame
  rw [hsame, hfoundActive] at hrow
  cases hrow

theorem entitlements_spent_once_in_time :
    SpentOnce ((idle (start (entitlement .once none))).history permissionSystem
      (.start issue :: steps 0 15)) := by
  have hkeyed : Table.Keyed (·.id) (start (entitlement .once none)).db.resourceScopeEntitlements :=
    List.nodup_singleton _
  exact entitlements_spent_once hkeyed _ (by decide +kernel) (by decide +kernel)

/-- The permission becomes permanent. -/
def permanent : PermissionCall :=
  .grant
    { input := { entitlement .persistent none with id := "second", sourceAccessRequestId := none }
      now := 10
      unended := rfl
      lifetime := by decide
      unexpired := rfl }

/-- A grant strengthens the entitlement after an issuance has read it. -/
def overtaken : List (Action Reply PermissionCall PermissionEvent) :=
  .start issue :: steps 0 14 ++ .start permanent :: steps 1 2

/-- A call has answered an entitlement with the id. -/
def answersGrant (id : String) : Option (Except Error PermissionAnswer) → Bool
  | some (.ok (.granted row)) => row.id = id
  | _ => false

theorem upgrade_spent :
    ¬ UpgradesKept (start (entitlement .once none)) (overtaken ++ steps 0 1) := by
  intro hkept
  have hreturned : ((idle (start (entitlement .once none))).run permissionSystem
      overtaken).procs.any (fun entry => answersGrant "entitlement" entry.2.result?) = true := by
    decide +kernel
  have hlasting : ((idle (start (entitlement .once none))).run permissionSystem
      overtaken).state.db.resourceScopeEntitlements.any (fun row =>
        row.id = "entitlement" && row.mode = .persistent) = true := by decide +kernel
  have hspent : (((idle (start (entitlement .once none))).run permissionSystem
      overtaken).history permissionSystem (steps 0 1)).any (fun entry =>
        storesLease entry.2.1 entry.2.2 (fun _ spent => spent.contains "entitlement") &&
          Database.isOpen "entitlement" entry.2.2.db) = true := by decide +kernel
  obtain ⟨entry, hentry, hanswer⟩ := List.any_eq_true.mp hreturned
  obtain ⟨row, hrow, hrowLasting⟩ := List.any_eq_true.mp hlasting
  simp only [Bool.and_eq_true, decide_eq_true_eq] at hrowLasting
  have hacknowledged : Acknowledged ((idle (start (entitlement .once none))).run permissionSystem
      overtaken) "entitlement" := by
    refine ⟨⟨entry, hentry, ?_⟩, row, hrow, hrowLasting.1, ?_⟩
    · cases hresult : entry.2.result? with
      | none => simp [hresult, answersGrant] at hanswer
      | some result =>
        cases result with
        | error e => simp [hresult, answersGrant] at hanswer
        | ok answer =>
          cases answer with
          | issued token => simp [hresult, answersGrant] at hanswer
          | decided answer => simp [hresult, answersGrant] at hanswer
          | granted row =>
            have hnamed : row.id = "entitlement" := by
              simpa [hresult, answersGrant] using hanswer
            exact ⟨_, rfl, hnamed⟩
    · rw [hrowLasting.2]
      exact EntitlementMode.noConfusion
  obtain ⟨⟨call, command, w⟩, hstep, hspends⟩ := List.any_eq_true.mp hspent
  rw [Bool.and_eq_true] at hspends
  obtain ⟨lease, spent, hleases, hcontains⟩ := leases_of_storesLease hspends.1
  exact hkept overtaken (steps 0 1) rfl "entitlement" hacknowledged _ hstep
    ⟨lease, spent, hleases, List.contains_iff_mem.mp hcontains, hspends.2⟩

/-- Strengthened before it is read, the entitlement is not spent. -/
theorem upgrades_kept_before :
    UpgradesKept (start (entitlement .once none))
      (.start permanent :: steps 0 2 ++ .start issue :: steps 1 15) := by
  have hkeyed : Table.Keyed (·.id) (start (entitlement .once none)).db.resourceScopeEntitlements :=
    List.nodup_singleton _
  exact upgrades_kept hkeyed _ (by decide +kernel) (by decide +kernel)

end SpentGrantExample

end Realmroot
