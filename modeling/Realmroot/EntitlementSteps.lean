import Realmroot.AccessFrames

/-!
# The steps of an entitlement

No statement on permissions changes whose an entitlement is and what it is for, and none takes
back that it has ended. Only an approval can make an entitlement usable once that was more than
that.
-/

namespace Realmroot

namespace ResourceScopeEntitlement

/-- What later statements leave of a row. -/
structure Remains (row later : ResourceScopeEntitlement) : Prop where
  agent : later.agentIdentityId = row.agentIdentityId
  resource : later.resourceServerId = row.resourceServerId
  details : later.authorizationDetails = row.authorizationDetails
  scope : later.scope = row.scope
  ended : row.endedAt.isSome = true → later.endedAt.isSome = true
  lasting : row.mode ≠ .once → later.mode ≠ .once

namespace Remains

variable {row middle later : ResourceScopeEntitlement}

theorem refl (row : ResourceScopeEntitlement) : row.Remains row :=
  ⟨rfl, rfl, rfl, rfl, fun h => h, fun h => h⟩

theorem trans (h : row.Remains middle) (h' : middle.Remains later) : row.Remains later where
  agent := h'.agent.trans h.agent
  resource := h'.resource.trans h.resource
  details := h'.details.trans h.details
  scope := h'.scope.trans h.scope
  ended hended := h'.ended (h.ended hended)
  lasting hmode := h'.lasting (h.lasting hmode)

end Remains

theorem remains_end (row : ResourceScopeEntitlement) (reason : EndReason) (now : Time) :
    row.Remains (row.end reason now) :=
  ⟨rfl, rfl, rfl, rfl, fun _ => rfl, fun h => h⟩

/-- A renewal sets the lifetime to one that lasts, or leaves it. -/
theorem remains_renewal (row : ResourceScopeEntitlement) {renewal : EntitlementRenewal}
    (h : ∀ lifetime, renewal.lifetime = some lifetime → lifetime.mode ≠ .once) :
    row.Remains (renewal.apply row) := by
  refine ⟨rfl, rfl, rfl, rfl, fun h => h, ?_⟩
  intro hmode
  cases hlifetime : renewal.lifetime with
  | none => simpa [EntitlementRenewal.apply, hlifetime] using hmode
  | some lifetime => simpa [EntitlementRenewal.apply, hlifetime] using h lifetime hlifetime

end ResourceScopeEntitlement

open ResourceScopeEntitlement

/-- An update does not make an entitlement usable once that was more than that. -/
def EntitlementUpdate.Preserves (update : EntitlementUpdate) (db : Database) : Prop :=
  update.mode = .once →
    ∀ row ∈ db.resourceScopeEntitlements, update.selects row = true → row.mode = .once

instance (update : EntitlementUpdate) (db : Database) : Decidable (update.Preserves db) :=
  inferInstanceAs (Decidable (_ → _))

/-- The updates of a command preserve what they find, and its renewal is to a lifetime that
lasts. -/
def AccessCommand.Preserves : AccessCommand → Database → Prop
  | approveAccessRequest approval, db =>
    ∀ update ∈ approval.entitlementUpdates, update.Preserves db
  | renewEntitlement renewal, _ =>
    ∀ lifetime, renewal.lifetime = some lifetime → lifetime.mode ≠ .once
  | _, _ => True

namespace Database

variable {db : Database}

/-- A row after the updates of an approval: its mode is the one that it had, or that of an update
that selects it. -/
theorem applyUpdates_mode (updates : List EntitlementUpdate)
    {rows : List ResourceScopeEntitlement} {row : ResourceScopeEntitlement} (hrow : row ∈ rows) :
    ∃ later ∈ applyUpdates updates rows, later.id = row.id ∧ later.endedAt = row.endedAt ∧
      later.agentIdentityId = row.agentIdentityId ∧
      later.resourceServerId = row.resourceServerId ∧
      later.authorizationDetails = row.authorizationDetails ∧ later.scope = row.scope ∧
      (later.mode = row.mode ∨
        ∃ update ∈ updates, update.selects row = true ∧ later.mode = update.mode) := by
  induction updates generalizing rows row with
  | nil => exact ⟨row, hrow, rfl, rfl, rfl, rfl, rfl, rfl, Or.inl rfl⟩
  | cons update updates ih =>
    have hlater : ∀ middle : ResourceScopeEntitlement, middle.id = row.id →
        middle.endedAt = row.endedAt → ∀ other : EntitlementUpdate,
          other.selects middle = other.selects row := by
      intro middle hid hended other
      simp only [EntitlementUpdate.selects, hid, hended]
    cases hselects : update.selects row with
    | true =>
      have hmem := Table.mem_updateWhere_of_pos (f := update.apply) hrow hselects
      obtain ⟨later, hmem, hid, hended, hagent, hresource, hdetails, hscope, hmode⟩ := ih hmem
      refine ⟨later, hmem, hid, hended, hagent, hresource, hdetails, hscope, Or.inr ?_⟩
      obtain hmode | ⟨other, hother, hselected, hmode⟩ := hmode
      · exact ⟨update, List.mem_cons_self .., hselects, hmode⟩
      · rw [hlater (update.apply row) rfl rfl] at hselected
        exact ⟨other, List.mem_cons_of_mem _ hother, hselected, hmode⟩
    | false =>
      have hmem := Table.mem_updateWhere_of_not (f := update.apply) hrow hselects
      obtain ⟨later, hmem, hid, hended, hagent, hresource, hdetails, hscope, hmode⟩ := ih hmem
      refine ⟨later, hmem, hid, hended, hagent, hresource, hdetails, hscope, ?_⟩
      obtain hmode | ⟨other, hother, hselected, hmode⟩ := hmode
      · exact Or.inl hmode
      · exact Or.inr ⟨other, List.mem_cons_of_mem _ hother, hselected, hmode⟩

theorem keyed_applyUpdates (updates : List EntitlementUpdate)
    {rows : List ResourceScopeEntitlement} (h : Table.Keyed (·.id) rows) :
    Table.Keyed (·.id) (applyUpdates updates rows) := by
  induction updates generalizing rows with
  | nil => exact h
  | cons update updates ih => exact ih (h.updateWhere fun _ => rfl)

theorem not_conflicts_id {row : ResourceScopeEntitlement} (h : db.conflicts row = false) :
    ∀ old ∈ db.resourceScopeEntitlements, old.id ≠ row.id := by
  intro old hold hid
  simp only [conflicts, List.any_eq_false, Bool.not_eq_true] at h
  have hnone := h old hold
  simp [hid] at hnone

theorem keyed_insertEntitlements (requestId : String) (inputs : List ResourceScopeEntitlement)
    (h : Table.Keyed (·.id) db.resourceScopeEntitlements) :
    Table.Keyed (·.id)
      (db.resourceScopeEntitlements ++ (insertEntitlements requestId inputs db).1) := by
  induction inputs generalizing db with
  | nil => simpa [insertEntitlements] using h
  | cons input inputs ih =>
    have hfirst : Table.Keyed (·.id)
        (db.resourceScopeEntitlements ++ (insertEntitlement requestId db input).1.toList) := by
      unfold insertEntitlement
      dsimp only
      split_ifs with hgrants
      · simp only [Bool.and_eq_true, Bool.not_eq_true'] at hgrants
        exact h.append_singleton (not_conflicts_id hgrants.2)
      · simpa using h
    have hkeyed : Table.Keyed (·.id)
        (insertEntitlement requestId db input).2.resourceScopeEntitlements := by
      rw [insertEntitlement_snd]
      exact hfirst
    have hrest := ih hkeyed
    rw [insertEntitlement_snd] at hrest
    rw [insertEntitlements]
    dsimp only
    rw [insertEntitlement_snd]
    simpa using hrest

end Database

/-! ## Tables of entitlements -/

/-- The entitlements of one table live on in another, which has no id twice if the first has
none twice. -/
structure EntitlementsPersist (rows rows' : List ResourceScopeEntitlement) : Prop where
  remains : Table.Evolves (·.id) Remains rows rows'
  keyed : Table.Keyed (·.id) rows → Table.Keyed (·.id) rows'

namespace EntitlementsPersist

variable {rows middle rows' : List ResourceScopeEntitlement}

theorem refl (rows : List ResourceScopeEntitlement) : EntitlementsPersist rows rows :=
  ⟨Table.Evolves.refl Remains.refl, fun h => h⟩

theorem trans (h : EntitlementsPersist rows middle) (h' : EntitlementsPersist middle rows') :
    EntitlementsPersist rows rows' := by
  constructor
  · apply Table.Evolves.trans _ h.remains h'.remains
    exact fun _ _ _ => Remains.trans
  · exact fun hkeyed => h'.keyed (h.keyed hkeyed)

theorem updateWhere {selects : ResourceScopeEntitlement → Bool}
    {sets : ResourceScopeEntitlement → ResourceScopeEntitlement}
    (hid : ∀ row, (sets row).id = row.id) (hsets : ∀ row, Remains row (sets row)) :
    EntitlementsPersist rows (Table.updateWhere selects sets rows) :=
  ⟨Table.Evolves.updateWhere Remains.refl hid fun row _ => hsets row,
    fun h => h.updateWhere hid⟩

theorem ends (selects : ResourceScopeEntitlement → Bool) (reason : EndReason) (now : Time) :
    EntitlementsPersist rows (Table.updateWhere selects (·.end reason now) rows) :=
  updateWhere (fun _ => rfl) fun row => row.remains_end reason now

theorem append {row : ResourceScopeEntitlement} (h : ∀ old ∈ rows, old.id ≠ row.id) :
    EntitlementsPersist rows (rows ++ [row]) :=
  ⟨Table.Evolves.append Remains.refl [row], fun hkeyed => hkeyed.append_singleton h⟩

/-- The entitlements live on through an approval. -/
theorem approvedRows {approval : Approval} {db : Database}
    (h : ∀ update ∈ approval.entitlementUpdates, update.Preserves db) :
    EntitlementsPersist db.resourceScopeEntitlements (Database.approvedRows approval db) := by
  constructor
  · intro row hrow
    obtain ⟨later, hmem, hid, hended, hagent, hresource, hdetails, hscope, hmode⟩ :=
      Database.applyUpdates_mode approval.entitlementUpdates (List.mem_append_left
        (Database.insertEntitlements approval.requestId approval.entitlements db).1 hrow)
    refine ⟨later, hmem, hid, hagent, hresource, hdetails, hscope, ?_, ?_⟩
    · rw [hended]
      exact fun hended => hended
    · intro hlasting
      obtain hsame | ⟨update, hupdate, hselects, hset⟩ := hmode
      · rwa [hsame]
      · rw [hset]
        intro honce
        exact hlasting (h update hupdate honce row hrow hselects)
  · intro hkeyed
    exact Database.keyed_applyUpdates _ (Database.keyed_insertEntitlements _ _ hkeyed)

end EntitlementsPersist

/-- The entitlements live on through a statement on permissions. -/
theorem AccessCommand.persist_after (command : AccessCommand) {db : Database}
    (h : command.Preserves db) :
    EntitlementsPersist db.resourceScopeEntitlements
      (command.after db).resourceScopeEntitlements := by
  have hrefl : EntitlementsPersist db.resourceScopeEntitlements db.resourceScopeEntitlements :=
    .refl _
  have hother : TableGroup.entitlements ∉ command.writes →
      EntitlementsPersist db.resourceScopeEntitlements
        (command.after db).resourceScopeEntitlements := by
    intro hwrites
    have hsame : (command.after db).resourceScopeEntitlements = db.resourceScopeEntitlements :=
      command.after_same db hwrites
    rw [hsame]
    exact hrefl
  cases command with
  | approveAccessRequest approval =>
    apply Statement.after_keeps (p := fun db' => EntitlementsPersist
      db.resourceScopeEntitlements db'.resourceScopeEntitlements) hrefl
    intro outcome db' hok
    rw [Database.approveAccessRequest_ok hok, Database.recordAudit_agentAuditEvents]
    exact .approvedRows h
  | endEntitlement id reason now => exact .ends _ reason now
  | endEntitlementWithAudit id reason tokenLeaseIds now audit =>
    change EntitlementsPersist _ (Table.updateWhere _ _
      (Database.recordAudit _ _ db).resourceScopeEntitlements)
    rw [Database.recordAudit_agentAuditEvents]
    exact .ends _ reason now
  | issueTokenLease lease boundary consumeEntitlementIds now audit =>
    apply Statement.after_keeps (p := fun db' => EntitlementsPersist
      db.resourceScopeEntitlements db'.resourceScopeEntitlements) hrefl
    intro inserted db' hok
    obtain ⟨db₁, hinsert, rfl⟩ := Database.issueTokenLease_spends hok
    have hsame : db₁.resourceScopeEntitlements = db.resourceScopeEntitlements := by
      obtain ⟨-, -, rfl⟩ | ⟨-, -, rfl⟩ := Database.insertTokenLease_ok hinsert
      · rfl
      · rfl
    unfold Database.spendLease
    split_ifs
    · rw [Database.recordAudit_agentAuditEvents, ← hsame]
      exact .ends _ _ now
    · rw [hsame]
      exact hrefl
  | insertScopeEntitlement row =>
    apply Statement.after_keeps (p := fun db' => EntitlementsPersist
      db.resourceScopeEntitlements db'.resourceScopeEntitlements) hrefl
    intro inserted db' hok
    obtain ⟨-, -, rfl⟩ | ⟨-, hfree, rfl⟩ := Database.insertScopeEntitlement_ok hok
    · exact hrefl
    · exact .append (Database.not_conflicts_id hfree)
  | replaceExpiredEntitlement id row now =>
    apply Statement.after_keeps (p := fun db' => EntitlementsPersist
      db.resourceScopeEntitlements db'.resourceScopeEntitlements) hrefl
    intro answer db' hok
    obtain ⟨hfree, rfl⟩ := Database.replaceExpiredEntitlement_ok hok
    exact (EntitlementsPersist.ends _ _ now).trans (.append (Database.not_conflicts_id hfree))
  | renewEntitlement renewal =>
    apply Statement.after_keeps (p := fun db' => EntitlementsPersist
      db.resourceScopeEntitlements db'.resourceScopeEntitlements) hrefl
    intro renewed db' hok
    rw [(Database.renewEntitlement_ok hok).2]
    exact .updateWhere (fun _ => rfl) fun row => row.remains_renewal h
  | revokeAuthorizationsByConnector authorizationIds now =>
    apply Statement.after_keeps (p := fun db' => EntitlementsPersist
      db.resourceScopeEntitlements db'.resourceScopeEntitlements) hrefl
    intro answer db' hok
    change Database.revokeAuthorizations authorizationIds now db = .ok (answer, db') at hok
    unfold Database.revokeAuthorizations at hok
    dsimp only at hok
    split_ifs at hok
    cases hok
    exact .updateWhere (fun _ => rfl) fun row =>
      ⟨rfl, rfl, rfl, rfl, fun h => h, fun h => h⟩
  | updateResource id patch narrowing now =>
    apply Statement.after_keeps (p := fun db' => EntitlementsPersist
      db.resourceScopeEntitlements db'.resourceScopeEntitlements) hrefl
    intro updated db' hok
    rw [Database.updateResource_ok hok]
    exact .ends _ _ now
  | replaceResourceDiscovery id discovery narrowing now => exact .ends _ _ now
  | deleteResource id now audit =>
    change EntitlementsPersist _ (Table.updateWhere _ _
      (Database.recordAudit _ _ db).resourceScopeEntitlements)
    rw [Database.recordAudit_agentAuditEvents]
    exact .ends _ _ now
  | _ => exact hother (by simp [AccessCommand.writes])

end Realmroot
