import Realmroot.AgentApprovals
import Realmroot.Library.Watched

/-!
# Revocations in interleavings

Agents and hosts are revoked, update after update, while any number of decisions about them are in
progress. A decision only changes what is pending, and no update makes anything pending or active
that was not; so each update of a revocation stands, at whatever point it executes.
-/

namespace Realmroot

open AtomicProgram Program Pool

/-! ## The system -/

inductive RevocationRequest where
  | decide (decision : DecisionCall)
  | revokeAgentForUser (agentId userId : String)
  | revokeAgent (agentId : String)
  | revokeHost (hostId : String)
  deriving DecidableEq

def RevocationRequest.program [Platform] : RevocationRequest → Request Unit
  | decide decision => (decideAgentApproval decision.input decision.userId).discard
  | revokeAgentForUser agentId userId => Realmroot.revokeAgentForUser agentId userId
  | revokeAgent agentId => Realmroot.revokeAgent agentId
  | revokeHost hostId => Realmroot.revokeHost hostId

inductive RevocationEvent where
  | elapse (milliseconds : ℕ)
  /-- The tables that no decision changes change in any way. -/
  | configure (db : Database)
  | createAgent (row : AgentRecord)
  | createGrant (row : AgentCapabilityGrant)
  | createRequest (row : ApprovalRequest)

def revocationSystem [Platform] :
    System Command World Reply Error Unit RevocationRequest RevocationEvent where
  program := RevocationRequest.program
  environment
    | .elapse milliseconds, w => { w with clock := w.clock + milliseconds }
    | .configure db, w => { w with db := keepApprovals w.db db }
    | .createAgent row, w =>
      { w with db := { w.db with agents := Table.insertNew (·.id) row w.db.agents } }
    | .createGrant row, w =>
      { w with db := { w.db with
        agentCapabilityGrants := Table.insertNew (·.id) row w.db.agentCapabilityGrants } }
    | .createRequest row, w =>
      { w with db := { w.db with
        approvalRequests := Table.insertNew (·.id) row w.db.approvalRequests } }

abbrev RevocationAction := Action Reply RevocationRequest RevocationEvent

/-! ## What a revocation is -/

/-- The grant is neither active nor pending. -/
def AgentCapabilityGrant.IsOver (row : AgentCapabilityGrant) : Prop :=
  row.status ≠ "active" ∧ row.status ≠ "pending"

/-- The agents that a request revokes: of a host, those that it has. -/
def RevocationRequest.Covers (db : Database) : RevocationRequest → String → Prop
  | decide _, _ => False
  | revokeAgentForUser agentId _, id => id = agentId
  | revokeAgent agentId, id => id = agentId
  | revokeHost hostId, id => ∃ row ∈ db.agents, row.id = id ∧ row.hostId = hostId

namespace Database

/-- An agent is revoked, and what there was of its grants and requests is over. -/
structure RevokedSince (db called : Database) (agentId : String) : Prop where
  there : ∃ row ∈ db.agents, row.id = agentId
  agent : ∀ row ∈ db.agents, row.id = agentId → row.status = "revoked"
  grants : ∀ old ∈ called.agentCapabilityGrants, old.agentId = agentId →
    ∀ row ∈ db.agentCapabilityGrants, row.id = old.id → row.IsOver
  requests : ∀ old ∈ called.approvalRequests, old.agentId = some agentId →
    ∀ row ∈ db.approvalRequests, row.id = old.id → row.status ≠ "pending"

/-- The primary keys of the tables. -/
structure RevocationKeys (db : Database) : Prop where
  agents : Table.Keyed (·.id) db.agents
  grants : Table.Keyed (·.id) db.agentCapabilityGrants
  requests : Table.Keyed (·.id) db.approvalRequests

end Database

/-! ## What stays -/

/-- An agent stays with its host, and stays revoked. -/
def AgentRecord.Stays (old new : AgentRecord) : Prop :=
  new.hostId = old.hostId ∧ (old.status = "revoked" → new.status = "revoked")

/-- A grant stays with its agent, and is not taken up again. -/
def AgentCapabilityGrant.Stays (old new : AgentCapabilityGrant) : Prop :=
  new.agentId = old.agentId ∧ (old.IsOver → new.IsOver)

/-- A request stays with its agent, and does not become pending again. -/
def ApprovalRequest.Stays (old new : ApprovalRequest) : Prop :=
  new.agentId = old.agentId ∧ (old.status ≠ "pending" → new.status ≠ "pending")

theorem AgentRecord.Stays.refl (row : AgentRecord) : row.Stays row := ⟨rfl, fun h => h⟩

theorem AgentCapabilityGrant.Stays.refl (row : AgentCapabilityGrant) : row.Stays row :=
  ⟨rfl, fun h => h⟩

theorem ApprovalRequest.Stays.refl (row : ApprovalRequest) : row.Stays row := ⟨rfl, fun h => h⟩

theorem AgentRecord.Stays.trans {a b c : AgentRecord} (h : a.Stays b) (h' : b.Stays c) :
    a.Stays c := ⟨h'.1.trans h.1, fun ha => h'.2 (h.2 ha)⟩

theorem AgentCapabilityGrant.Stays.trans {a b c : AgentCapabilityGrant} (h : a.Stays b)
    (h' : b.Stays c) : a.Stays c := ⟨h'.1.trans h.1, fun ha => h'.2 (h.2 ha)⟩

theorem ApprovalRequest.Stays.trans {a b c : ApprovalRequest} (h : a.Stays b)
    (h' : b.Stays c) : a.Stays c := ⟨h'.1.trans h.1, fun ha => h'.2 (h.2 ha)⟩

structure RevocationsMove (w t : World) : Prop where
  agents : Table.Evolves (·.id) AgentRecord.Stays w.db.agents t.db.agents
  grants : Table.Evolves (·.id) AgentCapabilityGrant.Stays w.db.agentCapabilityGrants
    t.db.agentCapabilityGrants
  requests : Table.Evolves (·.id) ApprovalRequest.Stays w.db.approvalRequests
    t.db.approvalRequests

theorem RevocationsMove.refl (w : World) : RevocationsMove w w where
  agents := Table.Evolves.refl AgentRecord.Stays.refl
  grants := Table.Evolves.refl AgentCapabilityGrant.Stays.refl
  requests := Table.Evolves.refl ApprovalRequest.Stays.refl

theorem RevocationsMove.trans {w t u : World} (h : RevocationsMove w t)
    (h' : RevocationsMove t u) : RevocationsMove w u where
  agents := h.agents.trans (fun _ _ _ first second => first.trans second) h'.agents
  grants := h.grants.trans (fun _ _ _ first second => first.trans second) h'.grants
  requests := h.requests.trans (fun _ _ _ first second => first.trans second) h'.requests

/-- The commands of decisions and revocations. -/
def Command.Decides : Command → Prop
  | .read => True
  | .generateId => True
  | .agentApproval _ => True
  | _ => False

def revocationPromises : Promises Command World Reply Error Unit RevocationRequest where
  inv w := w.db.RevocationKeys
  moves := RevocationsMove
  cond _ _ _ := True
  promise _ command _ := command.Decides
  post _ _ _ := True

/-! ## The updates -/

section Updates

open Database

variable {w : World}

/-- What an update must see to. -/
def UpdateStands (w : World) (db : Database) : Prop :=
  db.RevocationKeys ∧ RevocationsMove w { w with db := db }

theorem stands_decide {input : ApprovalDecision} {decided : Bool} {db : Database}
    (hkeys : w.db.RevocationKeys)
    (hok : Database.decideApproval input w.db = .ok (decided, db)) : UpdateStands w db := by
  obtain ⟨-, -, rfl⟩ := decideApproval_ok hok
  have hagentId : ∀ row, (input.decideAgent row).id = row.id := by
    intro row
    cases haction : input.action <;> simp [ApprovalDecision.decideAgent, haction]
  have hgrantId : ∀ row, (input.decideGrant row).id = row.id := by
    intro row
    unfold ApprovalDecision.decideGrant
    split_ifs <;> rfl
  refine ⟨⟨?_, ?_, ?_⟩, ⟨?_, ?_, ?_⟩⟩
  · exact hkeys.agents.updateWhere hagentId
  · exact hkeys.grants.updateWhere hgrantId
  · exact hkeys.requests.updateWhere fun _ => rfl
  · apply Table.Evolves.updateWhere AgentRecord.Stays.refl hagentId
    intro row hselected
    simp only [ApprovalDecision.decidesAgent, Bool.and_eq_true, decide_eq_true_eq] at hselected
    constructor
    · cases haction : input.action <;> simp [ApprovalDecision.decideAgent, haction]
    · intro hrevoked
      simp [hselected.2] at hrevoked
  · apply Table.Evolves.updateWhere AgentCapabilityGrant.Stays.refl hgrantId
    intro row hselected
    simp only [ApprovalDecision.decidesGrant, Bool.and_eq_true, decide_eq_true_eq] at hselected
    constructor
    · unfold ApprovalDecision.decideGrant
      split_ifs <;> rfl
    · intro hover
      exact absurd hselected.1 hover.2
  · refine Table.Evolves.updateWhere ApprovalRequest.Stays.refl (fun row => rfl) ?_
    intro row hselected
    simp only [ApprovalDecision.decides, Bool.and_eq_true, decide_eq_true_eq] at hselected
    exact ⟨rfl, fun hover => absurd hselected.1.2 hover⟩

theorem stands_agents {p : AgentRecord → Bool} {now : Time} {u : Unit} {db : Database}
    (hkeys : w.db.RevocationKeys) (hok : revokeAgentsWhere p now w.db = .ok (u, db)) :
    UpdateStands w db := by
  obtain ⟨-, rfl⟩ := revokeAgentsWhere_ok hok
  have hmoves := RevocationsMove.refl w
  refine ⟨⟨hkeys.agents.updateWhere fun _ => rfl, hkeys.grants, hkeys.requests⟩,
    ⟨?_, hmoves.grants, hmoves.requests⟩⟩
  exact Table.Evolves.updateWhere AgentRecord.Stays.refl (fun _ => rfl)
    fun _ _ => ⟨rfl, fun _ => rfl⟩

theorem stands_grants (p : AgentCapabilityGrant → Bool) (now : Time)
    (hkeys : w.db.RevocationKeys) :
    UpdateStands w { w.db with
      agentCapabilityGrants :=
        Table.updateWhere p (fun row => { row with status := "revoked", updatedAt := now })
          w.db.agentCapabilityGrants } := by
  have hmoves := RevocationsMove.refl w
  refine ⟨⟨hkeys.agents, hkeys.grants.updateWhere fun _ => rfl, hkeys.requests⟩,
    ⟨hmoves.agents, ?_, hmoves.requests⟩⟩
  refine Table.Evolves.updateWhere AgentCapabilityGrant.Stays.refl (fun row => rfl) ?_
  intro row _
  exact ⟨rfl, fun _ => ⟨by simp, by simp⟩⟩

theorem stands_requests (p : ApprovalRequest → Bool) (now : Time)
    (hkeys : w.db.RevocationKeys) :
    UpdateStands w { w.db with
      approvalRequests :=
        Table.updateWhere p (fun row => { row with status := "revoked", updatedAt := now })
          w.db.approvalRequests } := by
  have hmoves := RevocationsMove.refl w
  refine ⟨⟨hkeys.agents, hkeys.grants, hkeys.requests.updateWhere fun _ => rfl⟩,
    ⟨hmoves.agents, hmoves.grants, ?_⟩⟩
  refine Table.Evolves.updateWhere ApprovalRequest.Stays.refl (fun row => rfl) ?_
  intro row _
  exact ⟨rfl, fun _ => by simp⟩

theorem stands_approval {command : ApprovalCommand} {answer : command.Answer} {db : Database}
    (hkeys : w.db.RevocationKeys) (hok : command.statement w.db = .ok (answer, db)) :
    UpdateStands w db := by
  have hmoves := RevocationsMove.refl w
  cases command with
  | createApprovalRequest row =>
    obtain ⟨_, hfresh, hok⟩ := Statement.bind_ok hok
    obtain ⟨-, -, hok⟩ := Statement.bind_ok hok
    cases hok
    have hnew : ∀ old ∈ w.db.approvalRequests, old.id ≠ row.id := by
      simpa using refuseIf_ok.mp hfresh
    exact ⟨⟨hkeys.agents, hkeys.grants, hkeys.requests.append_singleton hnew⟩, hmoves.agents,
      hmoves.grants, Table.Evolves.append ApprovalRequest.Stays.refl [row]⟩
  | decideApproval input => exact stands_decide hkeys hok
  | revokeAgentRecord agentId now => exact stands_agents hkeys hok
  | revokeAgentCapabilityGrants agentId now =>
    cases hok
    exact stands_grants _ now hkeys
  | revokeAgentApprovalRequests agentId now =>
    cases hok
    exact stands_requests _ now hkeys
  | revokeHostRecord hostId now =>
    obtain rfl := revokeHostRecord_ok hok
    exact ⟨⟨hkeys.agents, hkeys.grants, hkeys.requests⟩, hmoves.agents, hmoves.grants,
      hmoves.requests⟩
  | revokeHostApprovalRequests hostId now =>
    cases hok
    exact stands_requests _ now hkeys

/-- Whatever a program of the system executes, what is over stays over. -/
theorem exec_revocation {request : RevocationRequest} {command : Command}
    (hkeys : w.db.RevocationKeys) (hpromise : revocationPromises.promise request command w) :
    (exec command w).db.RevocationKeys ∧ RevocationsMove w (exec command w) := by
  have hmoves := RevocationsMove.refl w
  cases command with
  | read => exact ⟨hkeys, hmoves⟩
  | generateId => exact ⟨hkeys, hmoves.agents, hmoves.grants, hmoves.requests⟩
  | agentApproval command =>
    exact Statement.after_keeps (p := UpdateStands w) ⟨hkeys, hmoves⟩
      fun answer db hok => stands_approval hkeys hok
  | _ => exact hpromise.elim

end Updates

/-! ## What the updates of a revocation establish -/

/-- What no step of the system undoes. -/
def Lasting (R : World → Prop) : Prop := ∀ s t, R s → RevocationsMove s t → R t

theorem Lasting.and {R Q : World → Prop} (hR : Lasting R) (hQ : Lasting Q) :
    Lasting fun u => R u ∧ Q u :=
  fun s t h hst => ⟨hR s t h.1 hst, hQ s t h.2 hst⟩

theorem Lasting.all {Q : String → World → Prop} (hQ : ∀ id, Lasting (Q id)) (ids : List String) :
    Lasting fun u => ∀ id ∈ ids, Q id u :=
  fun s t h hst id hid => hQ id s t (h id hid) hst

section Known

variable (called : World) (agentId : String)

def AgentThere (u : World) : Prop := ∃ row ∈ u.db.agents, row.id = agentId

def AgentRevoked (u : World) : Prop :=
  ∃ row ∈ u.db.agents, row.id = agentId ∧ row.status = "revoked"

def GrantsOver (u : World) : Prop :=
  ∀ old ∈ called.db.agentCapabilityGrants, old.agentId = agentId →
    ∃ row ∈ u.db.agentCapabilityGrants, row.id = old.id ∧ row.IsOver

def RequestsOver (u : World) : Prop :=
  ∀ old ∈ called.db.approvalRequests, old.agentId = some agentId →
    ∃ row ∈ u.db.approvalRequests, row.id = old.id ∧ row.status ≠ "pending"

/-- Every update of the revocation of an agent has been made. -/
structure RevocationMade (u : World) : Prop where
  agent : AgentRevoked agentId u
  grants : GrantsOver called agentId u
  requests : RequestsOver called agentId u

theorem lasting_moved : Lasting (RevocationsMove called) := fun _ _ h hst => h.trans hst

theorem lasting_there : Lasting (AgentThere agentId) := by
  rintro s t ⟨old, hold, hid⟩ hst
  obtain ⟨new, hnew, hid', -⟩ := hst.agents old hold
  exact ⟨new, hnew, hid'.trans hid⟩

theorem lasting_revoked : Lasting (AgentRevoked agentId) := by
  rintro s t ⟨old, hold, hid, hrevoked⟩ hst
  obtain ⟨new, hnew, hid', hstays⟩ := hst.agents old hold
  exact ⟨new, hnew, hid'.trans hid, hstays.2 hrevoked⟩

theorem lasting_grants : Lasting (GrantsOver called agentId) := by
  intro s t h hst old hold hagent
  obtain ⟨middle, hmiddle, hid, hover⟩ := h old hold hagent
  obtain ⟨new, hnew, hid', hstays⟩ := hst.grants middle hmiddle
  exact ⟨new, hnew, hid'.trans hid, hstays.2 hover⟩

theorem lasting_requests : Lasting (RequestsOver called agentId) := by
  intro s t h hst old hold hagent
  obtain ⟨middle, hmiddle, hid, hover⟩ := h old hold hagent
  obtain ⟨new, hnew, hid', hstays⟩ := hst.requests middle hmiddle
  exact ⟨new, hnew, hid'.trans hid, hstays.2 hover⟩

theorem lasting_made : Lasting (RevocationMade called agentId) := fun s t h hst =>
  ⟨lasting_revoked agentId s t h.agent hst, lasting_grants called agentId s t h.grants hst,
    lasting_requests called agentId s t h.requests hst⟩

variable {called agentId} {u : World} {now : Time} {a : Unit} {db : Database}

theorem revoked_of_update (hthere : AgentThere agentId u)
    (hok : Database.revokeAgentRecord agentId now u.db = .ok (a, db)) :
    AgentRevoked agentId { u with db := db } := by
  obtain ⟨-, rfl⟩ := Database.revokeAgentsWhere_ok hok
  obtain ⟨row, hrow, hid⟩ := hthere
  exact ⟨_, Table.mem_updateWhere_of_pos hrow (by simpa using hid), hid, rfl⟩

theorem grants_of_update (hmoved : RevocationsMove called u)
    (hok : Database.revokeAgentCapabilityGrants agentId now u.db = .ok (a, db)) :
    GrantsOver called agentId { u with db := db } := by
  cases hok
  intro old hold hagent
  obtain ⟨row, hrow, hid, hstays⟩ := hmoved.grants old hold
  refine ⟨_, Table.mem_updateWhere_of_pos hrow ?_, hid, by simp, by simp⟩
  simpa using hstays.1.trans hagent

theorem requests_of_update (hmoved : RevocationsMove called u)
    (hok : Database.revokeAgentApprovalRequests agentId now u.db = .ok (a, db)) :
    RequestsOver called agentId { u with db := db } := by
  cases hok
  intro old hold hagent
  obtain ⟨row, hrow, hid, hstays⟩ := hmoved.requests old hold
  refine ⟨_, Table.mem_updateWhere_of_pos hrow ?_, hid, by simp⟩
  simpa using hstays.1.trans hagent

end Known

/-! ## The programs -/

/-- What is known goes on to hold, and a program that returns has made its updates. -/
def Makes (R Q : World → Prop) (r : Except Error Unit) (u : World) : Prop :=
  R u ∧ (r = .ok () → Q u)

section Programs

variable {request : RevocationRequest} {R Q Q' : World → Prop} {t : World}

theorem makes_bind {p : Request Unit} {next : Unit → Request Unit}
    (hp : p.Meets (revocationPromises.contract request) (Makes R Q) t)
    (hnext : ∀ u, R u → Q u →
      (next ()).Meets (revocationPromises.contract request) (Makes R Q') u) :
    (p.bind next).Meets (revocationPromises.contract request) (Makes R Q') t := by
  rw [meets_bind]
  apply hp.mono
  rintro (e | ⟨⟩) u ⟨hR, hQ⟩
  · exact ⟨hR, fun h => by cases h⟩
  · exact hnext u hR (hQ rfl)

/-- What is known in addition may be forgotten. -/
theorem makes_forget {K : World → Prop} {p : Request Unit}
    (h : p.Meets (revocationPromises.contract request) (Makes (fun u => R u ∧ K u) Q) t) :
    p.Meets (revocationPromises.contract request) (Makes R Q) t :=
  h.mono fun _ _ hmakes => ⟨hmakes.1.1, hmakes.2⟩

theorem query_makes {α : Type} (hR : Lasting R) (ht : R t) {select : Database → α}
    {next : α → Request Unit}
    (hnext : ∀ u, R u → (next (select u.db)).Meets (revocationPromises.contract request)
      (Makes R Q) u) :
    (query select >>= next).Meets (revocationPromises.contract request) (Makes R Q) t := by
  apply meets_query
  intro u htu _
  exact ⟨trivial, hnext u (hR t u ht htu)⟩

theorem orThrow_makes {α : Type} (ht : R t) {error : Error} {value : Option α}
    {next : α → Request Unit}
    (hnext : ∀ a, value = some a → (next a).Meets (revocationPromises.contract request)
      (Makes R Q) t) :
    (orThrow error value >>= next).Meets (revocationPromises.contract request) (Makes R Q) t := by
  apply meets_orThrow
  · intro _
    exact ⟨ht, fun h => by cases h⟩
  · exact hnext

theorem revokeNow_makes (request : RevocationRequest) (command : Time → ApprovalCommand)
    (hR : Lasting R) (ht : R t)
    (heffect : ∀ now u answer db, R u → (command now).statement u.db = .ok (answer, db) →
      Q { u with db := db }) :
    (revokeNow command).Meets (revocationPromises.contract request) (Makes R Q) t := by
  apply meets_currentTime
  intro u htu _
  refine ⟨trivial, ?_⟩
  change (executeApproval (command u.clock) >>= fun _ => .pure ()).Meets _ _ u
  apply meets_perform
  intro v huv hallowed
  have hv : R v := hR u v (hR t u ht htu) huv
  have hmoves := @exec_revocation v request (.agentApproval (command u.clock)) hallowed.1 trivial
  have hlater := hR v _ hv hmoves.2
  refine ⟨trivial, ?_⟩
  cases hok : (command u.clock).statement v.db with
  | error e => exact ⟨hlater, fun h => by cases h⟩
  | ok result =>
    have hafter := Statement.after_of_ok hok
    refine ⟨hlater, fun _ => ?_⟩
    have heff := heffect u.clock v result.1 result.2 hv hok
    rw [← hafter] at heff
    exact heff

/-- One update for each identifier of a list. -/
theorem revokeEach_makes (request : RevocationRequest)
    (command : String → Time → ApprovalCommand) {Q : String → World → Prop}
    (hQ : ∀ id, Lasting (Q id)) {ids : List String} (hR : Lasting R) (ht : R t)
    (heffect : ∀ id ∈ ids, ∀ now u answer db, R u →
      (command id now).statement u.db = .ok (answer, db) → Q id { u with db := db }) :
    (forEach ids fun id => revokeNow (command id)).Meets (revocationPromises.contract request)
      (Makes R fun u => ∀ id ∈ ids, Q id u) t := by
  induction ids generalizing R t with
  | nil => exact ⟨ht, fun _ _ hid => by cases hid⟩
  | cons id ids ih =>
    have hfirst : (revokeNow (command id)).Meets (revocationPromises.contract request)
        (Makes R (Q id)) t :=
      revokeNow_makes request (command id) hR ht (heffect id List.mem_cons_self)
    apply makes_bind hfirst
    intro u hu hid
    have hrest := @ih (fun v => R v ∧ Q id v) u (hR.and (hQ id)) ⟨hu, hid⟩
      fun other hother now v answer db hv hok =>
        heffect other (List.mem_cons_of_mem id hother) now v answer db hv.1 hok
    apply hrest.mono
    intro r v hmakes
    refine ⟨hmakes.1.1, fun hr => ?_⟩
    simpa using ⟨hmakes.1.2, hmakes.2 hr⟩

section Agent

variable {called : World} {agentId : String}

/-- The updates of an agent that is there. -/
theorem revokeProtocolAgent_makes (hmoved : RevocationsMove called t)
    (hthere : AgentThere agentId t) :
    (revokeProtocolAgent agentId).Meets (revocationPromises.contract request)
      (Makes (RevocationsMove called) (RevocationMade called agentId)) t := by
  apply makes_forget (K := AgentThere agentId)
  have hlasting := (lasting_moved called).and (lasting_there agentId)
  apply makes_bind (revokeNow_makes request (.revokeAgentRecord agentId) (Q := AgentRevoked agentId)
    hlasting ⟨hmoved, hthere⟩ fun now u answer db hu hok => revoked_of_update hu.2 hok)
  intro u hu hrevoked
  apply makes_forget (K := AgentRevoked agentId)
  have hlasting' := hlasting.and (lasting_revoked agentId)
  apply makes_bind (revokeNow_makes request (.revokeAgentCapabilityGrants agentId)
    (Q := GrantsOver called agentId) hlasting' ⟨hu, hrevoked⟩
    fun now u answer db hu hok => grants_of_update hu.1.1 hok)
  intro v hv hgrants
  apply makes_forget (K := GrantsOver called agentId)
  have hlasting'' := hlasting'.and (lasting_grants called agentId)
  have hrequests := revokeNow_makes request (.revokeAgentApprovalRequests agentId)
    (Q := RequestsOver called agentId) hlasting'' ⟨hv, hgrants⟩
    fun now u answer db hu hok => requests_of_update hu.1.1.1 hok
  apply hrequests.mono
  intro r u hmakes
  exact ⟨hmakes.1, fun hr => ⟨hmakes.1.1.2, hmakes.1.2, hmakes.2 hr⟩⟩

theorem revokeAgent_makes (hmoved : RevocationsMove called t) :
    (revokeAgent agentId).Meets (revocationPromises.contract request)
      (Makes (RevocationsMove called) (RevocationMade called agentId)) t := by
  apply query_makes (lasting_moved called) hmoved
  intro u hu
  apply orThrow_makes hu
  intro row hrow
  apply revokeProtocolAgent_makes hu
  exact ⟨row, List.mem_of_find?_eq_some hrow, by simpa using List.find?_some hrow⟩

theorem revokeAgentForUser_makes (userId : String) (hmoved : RevocationsMove called t) :
    (revokeAgentForUser agentId userId).Meets (revocationPromises.contract request)
      (Makes (RevocationsMove called) (RevocationMade called agentId)) t := by
  apply query_makes (lasting_moved called) hmoved
  intro u hu
  apply orThrow_makes hu
  intro row hrow
  apply revokeProtocolAgent_makes hu
  have hfound := List.find?_some hrow
  rw [Bool.and_eq_true, decide_eq_true_eq] at hfound
  exact ⟨row, List.mem_of_find?_eq_some hrow, hfound.1⟩

/-- The updates of the agents of a host, all of which are there. -/
theorem revokeAgents_makes (request : RevocationRequest) (ids : List String) (hostId : String)
    (hmoved : RevocationsMove called t) (hthere : ∀ id ∈ ids, AgentThere id t) :
    ((forEach ids fun id => revokeNow (.revokeAgentRecord id)) >>= fun _ =>
      (forEach ids fun id => revokeNow (.revokeAgentCapabilityGrants id)) >>= fun _ =>
        (forEach ids fun id => revokeNow (.revokeAgentApprovalRequests id)) >>= fun _ =>
          revokeNow (.revokeHostApprovalRequests hostId)).Meets
      (revocationPromises.contract request)
      (Makes (RevocationsMove called) fun u => ∀ id ∈ ids, RevocationMade called id u) t := by
  have hlasting := (lasting_moved called).and (Lasting.all lasting_there ids)
  apply makes_forget (K := fun u => ∀ id ∈ ids, AgentThere id u)
  apply makes_bind (revokeEach_makes request .revokeAgentRecord (Q := AgentRevoked) lasting_revoked
    hlasting ⟨hmoved, hthere⟩
    fun id hid now u answer db hu hok => revoked_of_update (hu.2 id hid) hok)
  intro u hu hrevoked
  have hlasting' := hlasting.and (Lasting.all lasting_revoked ids)
  apply makes_forget (K := fun u => ∀ id ∈ ids, AgentRevoked id u)
  apply makes_bind (revokeEach_makes request .revokeAgentCapabilityGrants (Q := GrantsOver called)
    (lasting_grants called) hlasting' ⟨hu, hrevoked⟩
    fun id hid now u answer db hu hok => grants_of_update hu.1.1 hok)
  intro v hv hgrants
  have hlasting'' := hlasting'.and (Lasting.all (lasting_grants called) ids)
  apply makes_forget (K := fun u => ∀ id ∈ ids, GrantsOver called id u)
  apply makes_bind (revokeEach_makes request .revokeAgentApprovalRequests (Q := RequestsOver called)
    (lasting_requests called) hlasting'' ⟨hv, hgrants⟩
    fun id hid now u answer db hu hok => requests_of_update hu.1.1.1 hok)
  intro z hz hrequests
  have hlast := revokeNow_makes request (.revokeHostApprovalRequests hostId)
    (Q := fun _ => True) (hlasting''.and (Lasting.all (lasting_requests called) ids))
    ⟨hz, hrequests⟩ fun _ _ _ _ _ _ => trivial
  apply hlast.mono
  intro r y hmakes
  obtain ⟨⟨hknown, hrequests⟩, -⟩ := hmakes
  exact ⟨hknown, fun _ id hid => ⟨hknown.1.2 id hid, hknown.2 id hid, hrequests id hid⟩⟩

theorem revokeHost_makes (hostId : String) (hmoved : RevocationsMove called t) :
    (revokeHost hostId).Meets (revocationPromises.contract request)
      (Makes (RevocationsMove called) fun u =>
        ∀ id, (∃ row ∈ called.db.agents, row.id = id ∧ row.hostId = hostId) →
          RevocationMade called id u) t := by
  apply query_makes (lasting_moved called) hmoved
  intro u hu
  apply orThrow_makes hu
  intro host _
  apply makes_bind (revokeNow_makes request (.revokeHostRecord hostId) (Q := fun _ => True)
    (lasting_moved called) hu fun _ _ _ _ _ _ => trivial)
  intro v hv _
  apply query_makes (lasting_moved called) hv
  intro z hz
  have hthere : ∀ id ∈ (z.db.agents.filter fun row => row.hostId = hostId).map (·.id),
      AgentThere id z := by
    intro id hid
    obtain ⟨row, hrow, rfl⟩ := List.mem_map.mp hid
    exact ⟨row, (List.mem_filter.mp hrow).1, rfl⟩
  apply (revokeAgents_makes request _ hostId hz hthere).mono
  intro r y hmakes
  refine ⟨hmakes.1, fun hr id hcovered => hmakes.2 hr id ?_⟩
  -- an agent that the host had when it was called is among those that are read
  obtain ⟨old, hold, hid, hhost⟩ := hcovered
  obtain ⟨row, hrow, hid', hstays⟩ := hz.agents old hold
  rw [List.mem_map]
  refine ⟨row, List.mem_filter.mpr ⟨hrow, ?_⟩, hid'.trans hid⟩
  simpa using hstays.1.trans hhost

end Agent

/-! ## The system keeps its promises -/

/-- No program of the system undoes what lasts. -/
theorem uses_keeps {α : Type} {p : Request α} (hp : p.Uses Command.Decides) (hR : Lasting R)
    (ht : R t) : p.Meets (revocationPromises.contract request) (fun _ u => R u) t := by
  induction p generalizing t with
  | pure a => exact ht
  | throw e => exact ht
  | call c next ih =>
    intro u htu hallowed
    have hmoves := @exec_revocation u request c hallowed.1 hp.1
    exact ⟨hp.1, ih u (hp.2 u) (hR u _ (hR t u ht htu) hmoves.2)⟩
  | ask next ih => exact fun r u _ htu => ih r (hp r) (hR t u ht htu)

theorem decideApproval_uses (input : ApprovalInput) (audit : AgentAuditEvent) :
    (decideApproval input audit).Uses Command.Decides := by
  unfold decideApproval
  apply uses_bind (uses_query.mpr trivial)
  intro found
  apply uses_bind uses_orThrow
  intro approvalRequest
  apply uses_bind (uses_query.mpr trivial)
  intro found
  apply uses_bind (uses_query.mpr trivial)
  intro host
  apply uses_bind (uses_query.mpr trivial)
  intro pendingGrants
  apply uses_bind uses_orThrow
  intro currentAgent
  apply uses_bind uses_throwIf
  intro _
  apply uses_bind uses_throwIf
  intro _
  apply uses_bind uses_throwIf
  intro _
  apply uses_bind (uses_perform.mpr trivial)
  intro decided
  apply uses_bind uses_throwIf
  intro _
  trivial

theorem Command.LooksUp.decides (command : Command) (h : command.LooksUp) : command.Decides := by
  cases command with
  | read => trivial
  | generateId => trivial
  | _ => exact h.elim

variable [Platform]

theorem decideAgentApproval_uses (input : AgentDecision) (userId : String) :
    (decideAgentApproval input userId).Uses Command.Decides := by
  unfold decideAgentApproval
  apply uses_bind (uses_query.mpr trivial)
  intro grants
  apply uses_bind ((findActiveByProtocolAgent_looks _).mono Command.LooksUp.decides)
  intro identity
  apply uses_bind (uses_query.mpr trivial)
  intro protocolAgent
  apply uses_bind (uses_currentTime.mpr trivial)
  intro now
  apply uses_bind (uses_generateId.mpr trivial)
  intro auditId
  apply uses_bind (uses_currentTime.mpr trivial)
  intro occurredAt
  exact decideApproval_uses _ _

/-- What a request establishes from the state in which it is made. -/
theorem RevocationRequest.makes (request : RevocationRequest) (called : World) :
    (request.program).Meets (revocationPromises.contract request)
      (Makes (RevocationsMove called) fun u =>
        ∀ id, request.Covers called.db id → RevocationMade called id u) called := by
  have hmoved := RevocationsMove.refl called
  cases request with
  | decide decision =>
    have huses := (decideAgentApproval_uses decision.input decision.userId).discard
    apply (uses_keeps huses (lasting_moved called) hmoved).mono
    intro r u hu
    exact ⟨hu, fun _ _ hcovered => hcovered.elim⟩
  | revokeAgentForUser agentId userId =>
    apply (revokeAgentForUser_makes userId hmoved).mono
    intro r u hmakes
    exact ⟨hmakes.1, fun hr id hid => hid ▸ hmakes.2 hr⟩
  | revokeAgent agentId =>
    apply (revokeAgent_makes hmoved).mono
    intro r u hmakes
    exact ⟨hmakes.1, fun hr id hid => hid ▸ hmakes.2 hr⟩
  | revokeHost hostId => exact revokeHost_makes hostId hmoved

theorem revocationPromises_sound : revocationPromises.Sound revocationSystem where
  refl := RevocationsMove.refl
  trans := RevocationsMove.trans
  stable _ _ _ _ _ _ := trivial
  program request w _ := (request.makes w).mono fun _ _ _ => trivial
  exec request command w hkeys _ hpromise := exec_revocation hkeys hpromise
  environment event w hkeys := by
    have hmoves := RevocationsMove.refl w
    cases event with
    | elapse milliseconds => exact ⟨hkeys, hmoves.agents, hmoves.grants, hmoves.requests⟩
    | configure db =>
      exact ⟨⟨hkeys.agents, hkeys.grants, hkeys.requests⟩, hmoves.agents, hmoves.grants,
        hmoves.requests⟩
    | createAgent row =>
      exact ⟨⟨hkeys.agents.insertNew row, hkeys.grants, hkeys.requests⟩,
        Table.Evolves.insertNew AgentRecord.Stays.refl row, hmoves.grants, hmoves.requests⟩
    | createGrant row =>
      exact ⟨⟨hkeys.agents, hkeys.grants.insertNew row, hkeys.requests⟩, hmoves.agents,
        Table.Evolves.insertNew AgentCapabilityGrant.Stays.refl row, hmoves.requests⟩
    | createRequest row =>
      exact ⟨⟨hkeys.agents, hkeys.grants, hkeys.requests.insertNew row⟩, hmoves.agents,
        hmoves.grants, Table.Evolves.insertNew ApprovalRequest.Stays.refl row⟩

end Programs

/-! ## Runs -/

/-- What was updated under its key is over, where keys are unique. -/
theorem RevocationMade.since {called u : World} {agentId : String}
    (h : RevocationMade called agentId u) (hkeys : u.db.RevocationKeys) :
    u.db.RevokedSince called.db agentId := by
  obtain ⟨agent, hagent, hid, hrevoked⟩ := h.agent
  refine ⟨⟨agent, hagent, hid⟩, ?_, ?_, ?_⟩
  · intro row hrow hrowId
    rw [hkeys.agents.eq_of_key hrow hagent (hrowId.trans hid.symm)]
    exact hrevoked
  · intro old hold hagentId row hrow hrowId
    obtain ⟨new, hnew, hnewId, hover⟩ := h.grants old hold hagentId
    rw [hkeys.grants.eq_of_key hrow hnew (hrowId.trans hnewId.symm)]
    exact hover
  · intro old hold hagentId row hrow hrowId
    obtain ⟨new, hnew, hnewId, hover⟩ := h.requests old hold hagentId
    rw [hkeys.requests.eq_of_key hrow hnew (hrowId.trans hnewId.symm)]
    exact hover

section Runs

variable [Platform] {w : World} {before : List RevocationAction} {request : RevocationRequest}

/-- The conclusion where the revocation has returned, at the end of the run. -/
theorem revoked_when_returned (hkeys : w.db.RevocationKeys) {during : List RevocationAction}
    (hreturned : ((idle w).run revocationSystem (before ++ .start request :: during)).resultAt
      ((idle w).run revocationSystem before).procs.length = some (.ok ())) :
    ∀ agentId, request.Covers ((idle w).run revocationSystem before).state.db agentId →
      ((idle w).run revocationSystem (before ++ .start request :: during)).state.db.RevokedSince
        ((idle w).run revocationSystem before).state.db agentId := by
  let called := (idle w).run revocationSystem before
  have hadmits : Throughout revocationSystem revocationPromises.steps.Admits (idle w)
      (before ++ .start request :: during) :=
    Stepwise.throughout_admits (fun _ _ _ => trivial) fun _ _ => trivial
  have hlasting : ∀ r s t, Makes (RevocationsMove called.state) (fun u =>
      ∀ id, request.Covers called.state.db id → RevocationMade called.state id u) r s →
        RevocationsMove s t → Makes (RevocationsMove called.state) (fun u =>
          ∀ id, request.Covers called.state.db id → RevocationMade called.state id u) r t := by
    intro r s t hmakes hst
    refine ⟨hmakes.1.trans hst, fun hr id hcovered => ?_⟩
    exact lasting_made _ id s t (hmakes.2 hr id hcovered) hst
  have hmade := revocationPromises_sound.called hlasting hkeys hadmits (request.makes called.state)
    hreturned
  have hrun : revocationPromises.Inv
      ((idle w).run revocationSystem (before ++ .start request :: during)) :=
    revocationPromises_sound.run hkeys (fun _ _ _ => trivial) fun _ _ => trivial
  intro agentId hcovered
  exact (hmade.2 rfl agentId hcovered).since hrun.state

/-- A revocation is called at any point of a run, and returns at another. From then on, whatever
is still in progress, each agent that it covers is revoked, and what there was of the agent's
grants and requests when it was called is over. -/
theorem revocation_is_final (hkeys : w.db.RevocationKeys) (during later : List RevocationAction)
    (hreturned : ((idle w).run revocationSystem (before ++ .start request :: during)).resultAt
      ((idle w).run revocationSystem before).procs.length = some (.ok ())) :
    ∀ agentId, request.Covers ((idle w).run revocationSystem before).state.db agentId →
      ((idle w).run revocationSystem
        (before ++ .start request :: (during ++ later))).state.db.RevokedSince
          ((idle w).run revocationSystem before).state.db agentId := by
  apply revoked_when_returned hkeys
  rw [← List.cons_append, ← List.append_assoc, run_append]
  exact resultAt_run hreturned later

end Runs

/-! ## A host that is revoked while its agents are approved -/

namespace RevocationExample

attribute [local instance] samplePlatform

open ApprovalExample

def approves (agentId userCode : String) : RevocationRequest :=
  .decide (approve agentId userCode "ada")

def steps (count i : ℕ) : List RevocationAction := List.replicate count (.advance i {})

/-- Both agents are about to be approved, and the first of them is. -/
def before : List RevocationAction :=
  [.start (approves "first" "AAAA-1111"), .start (approves "second" "BBBB-2222")] ++
    steps 10 0 ++ steps 10 1 ++ steps 1 0

/-- The second one is approved after it has been revoked, and before its requests are. -/
def during : List RevocationAction := steps 9 2 ++ steps 1 1 ++ steps 20 2

theorem revocationKeys_start : start.db.RevocationKeys where
  agents := by simp [Table.Keyed, start, agent]
  grants := by simp [Table.Keyed, start, grant]
  requests := by simp [Table.Keyed, start, request]

theorem covers_second :
    (RevocationRequest.revokeHost "host").Covers ((idle start).run revocationSystem before).state.db
      "second" := by
  unfold RevocationRequest.Covers
  decide +kernel

set_option maxRecDepth 2000 in
theorem revocation_is_final_host :
    ((idle start).run revocationSystem
      (before ++ .start (.revokeHost "host") :: (during ++ []))).state.db.RevokedSince
        ((idle start).run revocationSystem before).state.db "second" :=
  revocation_is_final revocationKeys_start during [] (by decide +kernel) "second" covers_second

end RevocationExample

end Realmroot
