import Realmroot.ConnectionSystem
import Realmroot.Usecases.AgentRecovery

/-!
# Revocation of a host

A host of an identity is revoked with the binding of its agent. The batch revokes the agent, its
grants and its requests, but every active binding of the identity; afterwards the leases of the
one binding are revoked.
-/

namespace Realmroot

open AtomicProgram Program

/-! ## What is asked of a revocation -/

/-- The binding of an agent to an identity. -/
def AgentIdentityBinding.isOf (identityId protocolAgentId : String)
    (row : AgentIdentityBinding) : Bool :=
  row.agentIdentityId = identityId && row.protocolAgentId = protocolAgentId

/-- The lease was issued on the binding of an agent to an identity. -/
def ExternalTokenLease.isOn (db : Database) (identityId protocolAgentId : String)
    (row : ExternalTokenLease) : Bool :=
  db.agentIdentityBindings.any fun binding =>
    binding.isOf identityId protocolAgentId && binding.id = row.bindingId

/-- The binding of the agent, the agent, its grants and requests and the leases of the binding are
revoked, and everything else is unchanged. -/
structure HostRevocationExact (identityId protocolAgentId : String) (w t : World) : Prop where
  binding : ∀ row ∈ t.db.agentIdentityBindings, row.isOf identityId protocolAgentId = true →
    row.status ≠ "active"
  agent : ∀ row ∈ t.db.agents, row.id = protocolAgentId → row.status = "revoked"
  grants : ∀ row ∈ t.db.agentCapabilityGrants, row.agentId = protocolAgentId →
    row.status = "revoked"
  requests : ∀ row ∈ t.db.approvalRequests, row.agentId = some protocolAgentId →
    row.status ≠ "pending"
  leases : ∀ row ∈ t.db.externalTokenLeases, row.isOn w.db identityId protocolAgentId = true →
    row.isActive t.clock = false
  otherBindings :
    (t.db.agentIdentityBindings.filter fun row => !row.isOf identityId protocolAgentId) =
      w.db.agentIdentityBindings.filter fun row => !row.isOf identityId protocolAgentId
  otherAgents : (t.db.agents.filter fun row => row.id ≠ protocolAgentId) =
    w.db.agents.filter fun row => row.id ≠ protocolAgentId
  otherGrants : (t.db.agentCapabilityGrants.filter fun row => row.agentId ≠ protocolAgentId) =
    w.db.agentCapabilityGrants.filter fun row => row.agentId ≠ protocolAgentId
  otherRequests : (t.db.approvalRequests.filter fun row => row.agentId ≠ some protocolAgentId) =
    w.db.approvalRequests.filter fun row => row.agentId ≠ some protocolAgentId
  otherLeases :
    (t.db.externalTokenLeases.filter fun row => !row.isOn w.db identityId protocolAgentId) =
      w.db.externalTokenLeases.filter fun row => !row.isOn w.db identityId protocolAgentId

/-- The agent is the only one that is actively bound to the identity. -/
def OnlyBinding (identityId protocolAgentId : String) (db : Database) : Prop :=
  ∀ row ∈ db.agentIdentityBindings, row.agentIdentityId = identityId → row.status = "active" →
    row.protocolAgentId = protocolAgentId

/-! ## Requests that run alone -/

/-- Others leave the database alone, and time passes. -/
def Elapses (s t : World) : Prop := t.db = s.db ∧ s.clock ≤ t.clock

theorem Elapses.refl (s : World) : Elapses s s := ⟨rfl, le_rfl⟩

theorem Elapses.trans {s t u : World} (h : Elapses s t) (h' : Elapses t u) : Elapses s u :=
  ⟨h'.1.trans h.1, h.2.trans h'.2⟩

abbrev elapsing : Contract Command World Reply := alone Command Elapses fun _ => True

theorem quiet_outside : Quiet elapsing Command.Outside where
  refl := Elapses.refl
  trans := Elapses.trans
  guarantee _ _ _ _ := trivial
  moves c hc s _ := by
    cases c with
    | read => exact Elapses.refl s
    | generateId => exact Elapses.refl s
    | send request => exact Elapses.refl s
    | _ => exact hc.elim

section Alone

variable {α β : Type} {w : World}

/-- A request that changes no table, at the head of a longer one. -/
theorem elapsing_outside {p : Request α} {next : α → Request β} {P : β → World → Prop}
    (hp : p.Uses Command.Outside)
    (h : ∀ a t, Elapses w t → (next a).Meets elapsing (onSuccess P) t) :
    (p >>= next).Meets elapsing (onSuccess P) w :=
  quiet_outside.meets_bind hp h fun _ _ _ => trivial

end Alone

/-! ## The leases -/

section Leases

variable {w : World} {bindingId : String} {readAt : Time} {base : Database}
  {rest : List ExternalTokenLease}

/-- Where the leases in `rest` are still to be revoked: nothing but leases of the binding differs
from the database in which the loop began. -/
structure LeasesLeft (bindingId : String) (readAt : Time) (base : Database)
    (rest : List ExternalTokenLease) (u : World) : Prop where
  clock : readAt ≤ u.clock
  tables : u.db = { base with externalTokenLeases := u.db.externalTokenLeases }
  others : (u.db.externalTokenLeases.filter fun row => row.bindingId ≠ bindingId) =
    base.externalTokenLeases.filter fun row => row.bindingId ≠ bindingId
  left : ∀ row ∈ u.db.externalTokenLeases, row.bindingId = bindingId →
    row.isActive readAt = true → ∃ lease ∈ rest, lease.id = row.id
  own : ∀ lease ∈ rest, ∀ row ∈ u.db.externalTokenLeases, row.id = lease.id →
    row.bindingId = bindingId

theorem LeasesLeft.moved {u v : World} (h : LeasesLeft bindingId readAt base rest u)
    (hmoved : Elapses u v) : LeasesLeft bindingId readAt base rest v := by
  obtain ⟨hdb, hclock⟩ := hmoved
  refine ⟨h.clock.trans hclock, ?_, ?_, ?_, ?_⟩
  · rw [hdb]
    exact h.tables
  · rw [hdb]
    exact h.others
  · rw [hdb]
    exact h.left
  · rw [hdb]
    exact h.own

/-- One lease is revoked. -/
theorem LeasesLeft.revoke {u : World} {lease : ExternalTokenLease}
    (h : LeasesLeft bindingId readAt base (lease :: rest) u) {answer : Bool} {db : Database}
    (hok : Database.revokeTokenLease lease.id readAt u.db = .ok (answer, db)) :
    LeasesLeft bindingId readAt base rest { u with db := db } := by
  cases hok
  refine ⟨h.clock, ?_, ?_, ?_, ?_⟩
  · rw [h.tables]
  · rw [← h.others]
    apply (Table.filter_updateWhere_iff _).mpr
    · intro row hrow hother hselected
      simp only [Bool.and_eq_true, decide_eq_true_eq] at hselected hother
      exact absurd (h.own lease List.mem_cons_self row hrow hselected.1) hother
    · intro row
      rfl
  · intro row hrow hbinding hactive
    obtain ⟨old, hold, rfl⟩ := Table.mem_updateWhere.mp hrow
    split_ifs at hbinding hactive ⊢ with hselected
    · simp [ExternalTokenLease.isActive] at hactive
    · obtain ⟨other, hother, hid⟩ := h.left old hold hbinding hactive
      rcases List.mem_cons.mp hother with rfl | hother
      · simp only [ExternalTokenLease.isActive, Bool.and_eq_true, decide_eq_true_eq] at hactive
        exact absurd (by simp [hid, hactive.1]) hselected
      · exact ⟨other, hother, hid⟩
  · intro other hother row hrow hid
    obtain ⟨old, hold, rfl⟩ := Table.mem_updateWhere.mp hrow
    split_ifs at hid ⊢
    · exact h.own other (List.mem_cons_of_mem _ hother) old hold hid
    · exact h.own other (List.mem_cons_of_mem _ hother) old hold hid

/-- The update that revokes a lease, when it is made. -/
theorem persistRevocation_alone (leaseId : String) (now : Time) {t : World}
    (hwt : Elapses w t) :
    (persistRevocation true leaseId now).Meets elapsing
      (onSuccess fun _ t => ∃ u answer db, Elapses w u ∧
        Database.revokeTokenLease leaseId now u.db = .ok (answer, db) ∧
          t = { u with db := db }) t := by
  apply meets_execute
  intro u htu _
  refine ⟨trivial, ?_, fun _ _ => trivial⟩
  intro answer db hok
  exact ⟨u, answer, db, hwt.trans htu, hok, rfl⟩

variable [Platform]

/-- A lease is revoked in the end, after reads and requests to others. -/
theorem revokeTokenLeaseAtTarget_alone (lease : ExternalTokenLease) (now : Time) :
    (revokeTokenLeaseAtTarget lease now true).Meets elapsing
      (onSuccess fun _ t => ∃ u answer db, Elapses w u ∧
        Database.revokeTokenLease lease.id now u.db = .ok (answer, db) ∧
          t = { u with db := db }) w := by
  apply elapsing_outside (uses_query.mpr trivial)
  intro foundRequest t hwt
  apply elapsing_outside uses_orThrow
  intro request t hwt'
  replace hwt := hwt.trans hwt'
  apply elapsing_outside (uses_query.mpr trivial)
  intro foundResource t hwt'
  replace hwt := hwt.trans hwt'
  apply elapsing_outside uses_orThrow
  intro resource t hwt'
  replace hwt := hwt.trans hwt'
  apply elapsing_outside (findConnectionWhen_uses trivial _)
  intro connection t hwt'
  replace hwt := hwt.trans hwt'
  apply elapsing_outside (externalOAuthAuthorization_uses trivial _ _)
  intro authorization t hwt'
  replace hwt := hwt.trans hwt'
  split
  · exact persistRevocation_alone lease.id now hwt
  · apply elapsing_outside uses_orThrow
    intro _ t hwt'
    replace hwt := hwt.trans hwt'
    apply elapsing_outside uses_ofResult
    intro token t hwt'
    replace hwt := hwt.trans hwt'
    apply elapsing_outside (postEmptyForm_uses (fun c hc => hc) _ _ _ _ _)
    intro _ t hwt'
    exact persistRevocation_alone lease.id now (hwt.trans hwt')

theorem revokeLeases_alone (h : LeasesLeft bindingId readAt base rest w) :
    (forEach rest fun lease => revokeTokenLeaseAtTarget lease readAt true).Meets elapsing
      (onSuccess fun _ t => LeasesLeft bindingId readAt base [] t) w := by
  have hdone : ∀ u, LeasesLeft bindingId readAt base [] u →
      LeasesLeft bindingId readAt base [] u := fun u hu => hu
  apply meets_forEach _ hdone rest w h
  intro lease rest u hu
  apply (revokeTokenLeaseAtTarget_alone lease readAt).mono
  rintro (e | _) t ht
  · trivial
  · obtain ⟨v, answer, db, huv, hok, rfl⟩ := ht
    exact (hu.moved huv).revoke hok

/-- The leases of a binding are all revoked in the end, and no others. -/
theorem revokeLeasesForBinding_alone (bindingId : String)
    (hkeys : Table.Keyed (·.id) w.db.externalTokenLeases) :
    (revokeAgentResourceLeasesForBinding bindingId).Meets elapsing
      (onSuccess fun _ t => ∃ readAt, w.clock ≤ readAt ∧
        LeasesLeft bindingId readAt w.db [] t) w := by
  apply meets_currentTime
  intro t hwt _
  refine ⟨trivial, ?_⟩
  apply meets_query
  intro u htu _
  refine ⟨trivial, ?_⟩
  have hdb : u.db = w.db := (hwt.trans htu).1
  have hbegin : LeasesLeft bindingId t.clock w.db
      (u.db.listActiveTokenLeasesByBinding bindingId t.clock) u := by
    refine ⟨htu.2, by rw [hdb], by rw [hdb], ?_, ?_⟩
    · intro row hrow hbinding hactive
      exact ⟨row, List.mem_filter.mpr ⟨hrow, by simp [hbinding, hactive]⟩, rfl⟩
    · intro lease hlease row hrow hid
      obtain ⟨hmem, hselected⟩ := List.mem_filter.mp hlease
      rw [hdb] at hmem hrow
      rw [hkeys.eq_of_key hrow hmem hid]
      simp only [Bool.and_eq_true, decide_eq_true_eq] at hselected
      exact hselected.1
  apply (revokeLeases_alone hbegin).mono
  rintro (e | _) v hv
  · trivial
  · exact ⟨t.clock, hwt.2, hv⟩

end Leases

/-! ## The batch -/

section Batch

variable {identityId protocolAgentId : String} {w : World}

/-- The batch of a revocation has executed, at some time, for an active binding. -/
def BatchMade (identityId protocolAgentId : String) (w t : World) : Prop :=
  w.clock ≤ t.clock ∧ (∃ row ∈ w.db.agentIdentityBindings,
    row.isOf identityId protocolAgentId = true) ∧
    ∃ now, Database.revokeProtocolAgents identityId [protocolAgentId] now w.db = .ok ((), t.db)

theorem revokeBinding_alone (now : Time) :
    (revokeBinding identityId protocolAgentId now).Meets elapsing
      (onSuccess fun done t => done = true → BatchMade identityId protocolAgentId w t) w := by
  apply meets_query
  intro t hwt _
  refine ⟨trivial, ?_⟩
  cases hfound : t.db.agentIdentityBindings.find? fun row =>
      row.agentIdentityId = identityId && row.protocolAgentId = protocolAgentId &&
        row.status = "active" with
  | none =>
    intro h
    cases h
  | some binding =>
    have hof := List.find?_some hfound
    simp only [Bool.and_eq_true, decide_eq_true_eq] at hof
    apply meets_perform
    intro u htu _
    refine ⟨trivial, ?_⟩
    have hdb : u.db = w.db := (hwt.trans htu).1
    cases hok : Database.revokeProtocolAgents identityId [protocolAgentId] now u.db with
    | error e =>
      simp only [IdentityCommand.statement, hok]
      trivial
    | ok result =>
      simp only [IdentityCommand.statement, hok]
      intro _
      have hafter : (exec (Command.identity (.revokeProtocolAgents identityId [protocolAgentId]
          now)) u).db = result.2 := Statement.after_of_ok hok
      refine ⟨(hwt.trans htu).2, ⟨binding, ?_, ?_⟩, now, ?_⟩
      · rw [← hwt.1]
        exact List.mem_of_find?_eq_some hfound
      · simp [AgentIdentityBinding.isOf, hof.1.1, hof.1.2]
      · rw [hafter, ← hdb]
        exact hok

theorem changed_alone (error : Error) :
    (changed error fun now => revokeBinding identityId protocolAgentId now).Meets elapsing
      (onSuccess fun _ t => BatchMade identityId protocolAgentId w t) w := by
  apply meets_currentTime
  intro t hwt _
  refine ⟨trivial, ?_⟩
  apply meets_call (revokeBinding_alone t.clock)
  intro done u hmade
  unfold throwIf
  split_ifs with hdone
  · trivial
  · obtain ⟨hclock, hbinding, hbatch⟩ := hmade (by simpa using hdone)
    rw [hwt.1] at hbinding hbatch
    exact ⟨hwt.2.trans hclock, hbinding, hbatch⟩

/-- The bindings that the identity has had. -/
theorem requireControlledIdentity_alone (actorUserId : String) :
    (requireControlledIdentity identityId actorUserId).Meets elapsing
      (onSuccess fun found t => Elapses w t ∧ found.bindings = w.db.bindingsOf identityId) w := by
  have hfound : (findIdentityAggregate identityId).Meets elapsing
      (onSuccess fun answer t => Elapses w t ∧
        ∀ found ∈ answer, found.bindings = w.db.bindingsOf identityId) w := by
    apply meets_query
    intro t hwt _
    refine ⟨trivial, ?_⟩
    cases hidentity : t.db.findIdentity identityId with
    | none => exact ⟨hwt, by simp⟩
    | some identity =>
      have hid := List.find?_some hidentity
      simp only [Bool.and_eq_true, decide_eq_true_eq] at hid
      intro u htu _
      refine ⟨trivial, hwt.trans htu, ?_⟩
      intro found hfound
      cases hfound
      rw [(hwt.trans htu).1, hid.1]
  have hrequired : (requireIdentity identityId).Meets elapsing
      (onSuccess fun found t => Elapses w t ∧
        found.bindings = w.db.bindingsOf identityId) w := by
    apply meets_call hfound
    intro answer t h
    cases answer with
    | none => trivial
    | some found => exact ⟨h.1, h.2 found rfl⟩
  apply meets_call hrequired
  intro found t h
  apply elapsing_outside uses_throwIf
  intro _ u htu
  exact ⟨h.1.trans htu, h.2⟩

/-- What a host revocation leaves when it returns. -/
structure HostRevoked (identityId protocolAgentId : String) (w t : World) : Prop where
  batch : ∃ u, BatchMade identityId protocolAgentId w u ∧
    ∃ binding ∈ w.db.bindingsOf identityId, binding.protocolAgentId = protocolAgentId ∧
      ∃ readAt v, LeasesLeft binding.id readAt u.db [] v ∧ v.clock ≤ t.clock ∧
        ∃ events, t.db = { v.db with agentAuditEvents := events }

variable [Platform]

omit [Platform] in
theorem exec_appendAudit (event : AgentAuditEvent) (v : World) :
    ∃ events, (exec (Command.identity (.appendAudit event)) v).db =
      { v.db with agentAuditEvents := events } := ⟨_, rfl⟩

theorem appendIdentityAudit_alone (action : String) (found : AgentIdentityAggregate)
    (controllerUserId : Option String) (metadata : Option Record) :
    (appendIdentityAudit action found controllerUserId metadata).Meets elapsing
      (onSuccess fun _ t => w.clock ≤ t.clock ∧
        ∃ events, t.db = { w.db with agentAuditEvents := events }) w := by
  apply elapsing_outside (uses_generateId.mpr trivial)
  intro id t hwt
  apply elapsing_outside (uses_currentTime.mpr trivial)
  intro occurredAt u htu
  apply meets_perform_last
  intro v huv _
  have hwv := (hwt.trans htu).trans huv
  refine ⟨trivial, hwv.2, ?_⟩
  rw [← hwv.1]
  exact exec_appendAudit _ v

theorem revokeAgentIdentityHost_alone (actorUserId : String)
    (hbindings : Table.Keyed (·.protocolAgentId) w.db.agentIdentityBindings)
    (hleases : Table.Keyed (·.id) w.db.externalTokenLeases) :
    (revokeAgentIdentityHost identityId protocolAgentId actorUserId).Meets elapsing
      (onSuccess fun _ t => HostRevoked identityId protocolAgentId w t) w := by
  apply meets_call (requireControlledIdentity_alone actorUserId)
  intro found t ⟨hwt, hfound⟩
  apply meets_call (changed_alone _)
  intro _ u hbatch
  obtain ⟨hclock, ⟨row, hrow, hof⟩, now, hmade⟩ := hbatch
  rw [hwt.1] at hrow hmade
  simp only [AgentIdentityBinding.isOf, Bool.and_eq_true, decide_eq_true_eq] at hof
  have hmem : row ∈ w.db.bindingsOf identityId :=
    List.mem_filter.mpr ⟨hrow, by simp [hof.1]⟩
  have hof' : ∃ row ∈ w.db.agentIdentityBindings,
      row.isOf identityId protocolAgentId = true :=
    ⟨row, hrow, by simp [AgentIdentityBinding.isOf, hof]⟩
  have hbinding : (found.bindings.find? fun candidate =>
      candidate.protocolAgentId = protocolAgentId) = some row := by
    rw [hfound]
    obtain ⟨other, hother⟩ := Option.isSome_iff_exists.mp
      (List.find?_isSome (p := fun candidate : AgentIdentityBinding =>
        candidate.protocolAgentId = protocolAgentId) |>.mpr ⟨row, hmem, decide_eq_true hof.2⟩)
    have hagent := List.find?_some hother
    have hmem' := List.mem_of_mem_filter (List.mem_of_find?_eq_some hother)
    rw [hother, hbindings.eq_of_key hmem' hrow (by simpa [hof.2] using hagent)]
  simp only [hbinding, revokeLeasesOf]
  have hkeys : Table.Keyed (·.id) u.db.externalTokenLeases := by
    rw [Database.revokeProtocolAgents_ok hmade]
    exact hleases
  apply meets_call (revokeLeasesForBinding_alone row.id hkeys)
  intro _ v ⟨readAt, hread, hleft⟩
  apply (appendIdentityAudit_alone _ _ _ _).mono
  rintro (e | _) t' ht'
  · trivial
  · obtain ⟨hvt, haudit⟩ := ht'
    exact ⟨u, ⟨hwt.2.trans hclock, hof', now, hmade⟩, row, hmem, hof.2, readAt, v, hleft, hvt,
      haudit⟩

end Batch

/-! ## Host revocation -/

section Result

variable {identityId protocolAgentId : String} {w t : World}

/-- The leases of an agent are those of its binding. -/
theorem isOn_iff (hbindings : Table.Keyed (·.protocolAgentId) w.db.agentIdentityBindings)
    {binding : AgentIdentityBinding} (hbinding : binding ∈ w.db.bindingsOf identityId)
    (hagent : binding.protocolAgentId = protocolAgentId) (row : ExternalTokenLease) :
    row.isOn w.db identityId protocolAgentId = true ↔ row.bindingId = binding.id := by
  obtain ⟨hmem, hidentity⟩ := List.mem_filter.mp hbinding
  simp only [ExternalTokenLease.isOn, AgentIdentityBinding.isOf, List.any_eq_true,
    Bool.and_eq_true, decide_eq_true_eq]
  constructor
  · rintro ⟨other, hother, hof, hid⟩
    rw [← hid, hbindings.eq_of_key hother hmem (hof.2.trans hagent.symm)]
  · intro hid
    exact ⟨binding, hmem, ⟨by simpa using hidentity, hagent⟩, hid.symm⟩

/-- The tables that a revocation changes. -/
theorem HostRevoked.tables (h : HostRevoked identityId protocolAgentId w t) :
    ∃ now, t.db.agentIdentityBindings =
        Table.updateWhere (fun row => row.agentIdentityId = identityId && row.status = "active")
          (fun row => { row with status := "revoked", revokedAt := some now, updatedAt := now })
          w.db.agentIdentityBindings ∧
      t.db.agents = Table.updateWhere (fun row => [protocolAgentId].contains row.id)
        (fun row => { row with status := "revoked", updatedAt := now }) w.db.agents ∧
      t.db.agentCapabilityGrants =
        Table.updateWhere (fun row => [protocolAgentId].contains row.agentId)
          (fun row => { row with status := "revoked", updatedAt := now })
          w.db.agentCapabilityGrants ∧
      t.db.approvalRequests =
        Table.updateWhere (fun row => row.agentId.any [protocolAgentId].contains)
          (fun row => { row with status := "revoked", updatedAt := now })
          w.db.approvalRequests := by
  obtain ⟨u, ⟨-, -, now, hmade⟩, binding, -, -, readAt, v, hleft, -, events, haudit⟩ := h
  have hv : v.db = { u.db with externalTokenLeases := v.db.externalTokenLeases } := hleft.tables
  rw [Database.revokeProtocolAgents_ok hmade] at hv
  refine ⟨now, ?_, ?_, ?_, ?_⟩
  · rw [haudit]
    exact congrArg (·.agentIdentityBindings) hv
  · rw [haudit]
    exact congrArg (·.agents) hv
  · rw [haudit]
    exact congrArg (·.agentCapabilityGrants) hv
  · rw [haudit]
    exact congrArg (·.approvalRequests) hv

/-- The leases of the binding are revoked, and no others. -/
theorem HostRevoked.leases (h : HostRevoked identityId protocolAgentId w t)
    (hbindings : Table.Keyed (·.protocolAgentId) w.db.agentIdentityBindings) :
    (∀ row ∈ t.db.externalTokenLeases, row.isOn w.db identityId protocolAgentId = true →
      row.isActive t.clock = false) ∧
    (t.db.externalTokenLeases.filter fun row => !row.isOn w.db identityId protocolAgentId) =
      w.db.externalTokenLeases.filter fun row => !row.isOn w.db identityId protocolAgentId := by
  obtain ⟨u, ⟨-, -, now, hmade⟩, binding, hbinding, hagent, readAt, v, hleft, hvt, events,
    haudit⟩ := h
  have hon := isOn_iff hbindings hbinding hagent
  have htable : t.db.externalTokenLeases = v.db.externalTokenLeases := by rw [haudit]
  constructor
  · intro row hrow hof
    rw [htable] at hrow
    by_contra hactive
    simp only [ExternalTokenLease.isActive, Bool.not_eq_false, Bool.and_eq_true,
      decide_eq_true_eq] at hactive
    have hread : row.isActive readAt = true := by
      simp only [ExternalTokenLease.isActive, Bool.and_eq_true, decide_eq_true_eq]
      exact ⟨(hleft.clock.trans hvt).trans_lt hactive.1, hactive.2⟩
    obtain ⟨lease, hlease, -⟩ := hleft.left row hrow ((hon row).mp hof) hread
    simp at hlease
  · have hseen : (fun row : ExternalTokenLease => !row.isOn w.db identityId protocolAgentId) =
        fun row => decide (row.bindingId ≠ binding.id) := by
      funext row
      rw [Bool.eq_iff_iff]
      simp [← hon row]
    have hothers := hleft.others
    rw [Database.revokeProtocolAgents_ok hmade] at hothers
    rw [hseen, htable]
    exact hothers

/-- Exactly the host is revoked exactly when no other agent is actively bound to the identity. -/
theorem HostRevoked.exact_iff (h : HostRevoked identityId protocolAgentId w t)
    (hbindings : Table.Keyed (·.protocolAgentId) w.db.agentIdentityBindings) :
    HostRevocationExact identityId protocolAgentId w t ↔
      OnlyBinding identityId protocolAgentId w.db := by
  obtain ⟨now, hbindingRows, hagents, hgrants, hrequests⟩ := h.tables
  have hother : ((t.db.agentIdentityBindings.filter fun row =>
      !row.isOf identityId protocolAgentId) =
      w.db.agentIdentityBindings.filter fun row => !row.isOf identityId protocolAgentId) ↔
      OnlyBinding identityId protocolAgentId w.db := by
    rw [hbindingRows, Table.filter_updateWhere_iff]
    · constructor
      · intro hsame row hrow hidentity hactive
        by_contra hagent
        have hkept := hsame row hrow (by simp [AgentIdentityBinding.isOf, hagent])
          (by simp [hidentity, hactive])
        rw [← hkept] at hactive
        simp at hactive
      · intro honly row hrow hof hselected
        simp only [Bool.and_eq_true, decide_eq_true_eq] at hselected
        have hagent := honly row hrow hselected.1 hselected.2
        simp [AgentIdentityBinding.isOf, hselected.1, hagent] at hof
    · intro row
      rfl
  constructor
  · intro hexact
    exact hother.mp hexact.otherBindings
  · intro honly
    refine
      { binding := ?_, agent := ?_, grants := ?_, requests := ?_, leases := (h.leases hbindings).1
        otherBindings := hother.mpr honly, otherAgents := ?_, otherGrants := ?_
        otherRequests := ?_, otherLeases := (h.leases hbindings).2 }
    · rw [hbindingRows]
      intro row hrow hof
      obtain ⟨old, -, rfl⟩ := Table.mem_updateWhere.mp hrow
      split_ifs at hof ⊢ with hselected
      · simp
      · simp only [AgentIdentityBinding.isOf, Bool.and_eq_true, decide_eq_true_eq] at hof
        simpa [hof.1] using hselected
    · rw [hagents]
      intro row hrow hid
      obtain ⟨old, -, rfl⟩ := Table.mem_updateWhere.mp hrow
      split_ifs at hid ⊢ with hselected
      · rfl
      · simp [hid] at hselected
    · rw [hgrants]
      intro row hrow hid
      obtain ⟨old, -, rfl⟩ := Table.mem_updateWhere.mp hrow
      split_ifs at hid ⊢ with hselected
      · rfl
      · simp [hid] at hselected
    · rw [hrequests]
      intro row hrow hid
      obtain ⟨old, -, rfl⟩ := Table.mem_updateWhere.mp hrow
      split_ifs at hid ⊢ with hselected
      · simp
      · simp [hid] at hselected
    · rw [hagents]
      apply Table.filter_updateWhere
      · intro row hselected
        simpa using hselected
      · intro row
        rfl
    · rw [hgrants]
      apply Table.filter_updateWhere
      · intro row hselected
        simpa using hselected
      · intro row
        rfl
    · rw [hrequests]
      apply Table.filter_updateWhere
      · intro row hselected
        cases hagent : row.agentId <;> simp_all
      · intro row
        rfl

variable [Platform]

/-- A host revocation that returns revokes exactly the host when the agent's binding is the only
active one of the identity, and otherwise it revokes the other bindings as well. -/
theorem host_revocation_exact_iff (w : World)
    (hbindings : Table.Keyed (·.protocolAgentId) w.db.agentIdentityBindings)
    (hleases : Table.Keyed (·.id) w.db.externalTokenLeases)
    (around : Surroundings World Reply) (haround : ∀ n s, Elapses s (around.elapse n s))
    (n : ℕ) (identityId protocolAgentId actorUserId : String)
    (hreturned : ((revokeAgentIdentityHost identityId protocolAgentId actorUserId).execute
      around n w).1 = .ok ()) :
    HostRevocationExact identityId protocolAgentId w
        ((revokeAgentIdentityHost identityId protocolAgentId actorUserId).execute around n w).2 ↔
      OnlyBinding identityId protocolAgentId w.db := by
  have hdone := (@revokeAgentIdentityHost_alone identityId protocolAgentId w _ actorUserId hbindings
    hleases).execute around haround (fun _ => trivial) n
  rw [hreturned] at hdone
  exact HostRevoked.exact_iff hdone hbindings

end Result

namespace HostRevocationExample

attribute [local instance] samplePlatform

/-- An identity of `ada` with the agents `bound`. -/
def start (bound : List String) : World :=
  { db :=
      { users := [{ id := "ada", banned := false, deletedAt := none }]
        agentIdentities :=
          [newAgentIdentityRecord "identity" "subject" "issuer" "bot" "Bot" "node" "ada" 0]
        agentIdentityBindings :=
          bound.map fun agent => newAgentIdentityBinding agent "identity" agent 0 }
    clock := 0, nextId := 0 }

def revoked (bound : List String) : Except Error Unit × World :=
  (revokeAgentIdentityHost "identity" "laptop" "ada").execute
    { elapse := fun _ s => s, reply := fun _ => {} } 0 (start bound)

theorem host_revocation_exact_iff_laptop :
    HostRevocationExact "identity" "laptop" (start ["laptop"]) (revoked ["laptop"]).2 ↔
      OnlyBinding "identity" "laptop" (start ["laptop"]).db :=
  host_revocation_exact_iff (start ["laptop"]) (List.nodup_singleton _) List.nodup_nil _
    (fun _ => Elapses.refl) 0 "identity" "laptop" "ada" (by decide +kernel)

/-- The host of `server` is revoked with that of `laptop`. -/
theorem server_revoked_too :
    (revoked ["laptop", "server"]).1 = .ok () ∧
      ¬ HostRevocationExact "identity" "laptop" (start ["laptop", "server"])
        (revoked ["laptop", "server"]).2 := by
  constructor
  · decide +kernel
  · intro hexact
    have hsame := hexact.otherBindings
    revert hsame
    decide +kernel

end HostRevocationExample

end Realmroot
