import Realmroot.Usecases.AgentIdentities

/-!
# The creation of an agent under a key

How far a creation has come: nothing is stored yet, a new agent is stored with its installation,
or an agent of an earlier version is reserved. A statement that creates or reserves is only
refused by a unique index, and never while the identifiers of the request are free.
-/

namespace Realmroot

/-! ## What is found under a key -/

/-- The reservation under the key, with its identity. -/
def Database.findReserved (context : CreationContext) (db : Database) :
    Option (AgentApplicationCreation × AgentIdentity) :=
  (db.findCreation context.applicationId context.actorUserId context.idempotencyKey).bind
    fun creation => (db.findIdentityRow creation.agentIdentityId).map fun identity =>
      (creation, identity)

/-- The reservation is one under the key. -/
def AgentApplicationCreation.isUnder (context : CreationContext)
    (row : AgentApplicationCreation) : Prop :=
  row.applicationId = context.applicationId ∧ row.actorUserId = context.actorUserId ∧
    row.idempotencyKey = context.idempotencyKey

/-- The tables of agents, of their identities, and of those who own them are the same. -/
structure SameIdentities (db db' : Database) : Prop where
  users : db'.users = db.users
  hosts : db'.agentHosts = db.agentHosts
  agents : db'.agents = db.agents
  identities : db'.agentIdentities = db.agentIdentities
  bindings : db'.agentIdentityBindings = db.agentIdentityBindings
  creations : db'.agentApplicationCreations = db.agentApplicationCreations
  events : db'.agentAuditEvents = db.agentAuditEvents

theorem SameIdentities.refl (db : Database) : SameIdentities db db :=
  ⟨rfl, rfl, rfl, rfl, rfl, rfl, rfl⟩

theorem SameIdentities.trans {db db' db'' : Database} (h : SameIdentities db db')
    (h' : SameIdentities db' db'') : SameIdentities db db'' :=
  ⟨h'.users.trans h.users, h'.hosts.trans h.hosts, h'.agents.trans h.agents,
    h'.identities.trans h.identities, h'.bindings.trans h.bindings,
    h'.creations.trans h.creations, h'.events.trans h.events⟩

namespace SameIdentities

variable {db db' : Database} (h : SameIdentities db db')

include h

theorem findCreation (applicationId actorUserId idempotencyKey : String) :
    db'.findCreation applicationId actorUserId idempotencyKey =
      db.findCreation applicationId actorUserId idempotencyKey := by
  rw [Database.findCreation, h.creations, Database.findCreation]

theorem findIdentityRow (id : String) : db'.findIdentityRow id = db.findIdentityRow id := by
  rw [Database.findIdentityRow, h.identities, Database.findIdentityRow]

theorem findIdentity (id : String) : db'.findIdentity id = db.findIdentity id := by
  rw [Database.findIdentity, h.identities, Database.findIdentity]

theorem findReserved (context : CreationContext) :
    db'.findReserved context = db.findReserved context := by
  simp only [Database.findReserved, h.findCreation, h.findIdentityRow]

theorem bindingsOf (id : String) : db'.bindingsOf id = db.bindingsOf id := by
  rw [Database.bindingsOf, h.bindings, Database.bindingsOf]

theorem findByUsername (username : String) :
    db'.findByUsername username = db.findByUsername username := by
  rw [Database.findByUsername, h.identities, Database.findByUsername]

theorem findProtocolAgent (id : String) : db'.findProtocolAgent id = db.findProtocolAgent id := by
  rw [Database.findProtocolAgent, h.agents, Database.findProtocolAgent]

theorem listHostsForAgents (ids : List String) :
    db'.listHostsForAgents ids = db.listHostsForAgents ids := by
  rw [Database.listHostsForAgents, h.hosts, Database.listHostsForAgents]

theorem findAuditEvent (id : String) : db'.findAuditEvent id = db.findAuditEvent id := by
  rw [Database.findAuditEvent, h.events, Database.findAuditEvent]

end SameIdentities

/-! ## The state in which calls start -/

section Start

variable [Platform] (context : CreationContext)

/-- The database before the calls: the actor is there, references point to rows, and what the
generator will generate is not in use. -/
structure CreationContext.Opens (start : World) : Prop where
  actor : start.db.isUser context.actorUserId = true
  live : start.db.isDeletedUser context.actorUserId = false
  reserved : ∀ creation ∈ start.db.agentApplicationCreations,
    ∃ identity ∈ start.db.agentIdentities, identity.id = creation.agentIdentityId
  bound : ∀ binding ∈ start.db.agentIdentityBindings,
    ∃ agent ∈ start.db.agents, agent.id = binding.protocolAgentId
  freshIdentity : ∀ n, start.nextId ≤ n → ∀ identity ∈ start.db.agentIdentities,
    identity.id ≠ Platform.generateId n ∧ identity.subject ≠ Platform.generateId n
  freshBinding : ∀ n, start.nextId ≤ n → ∀ binding ∈ start.db.agentIdentityBindings,
    binding.id ≠ Platform.generateId n
  freshCreation : ∀ n, start.nextId ≤ n → ∀ creation ∈ start.db.agentApplicationCreations,
    creation.id ≠ Platform.generateId n
  modern : ∀ n, Platform.generateId n ≠ (legacyApplicationAgentLookupIds context).identityId

/-- What is stored under the identifiers of an earlier version is what the request asks for. -/
def MatchesLegacy (start : Database) (input : CreateAgent) (identity : AgentIdentity) : Prop :=
  let ids := legacyApplicationAgentLookupIds context
  canonicalJson (actualLegacyAgent
      { identity := identity, bindings := start.bindingsOf identity.id }
      (start.findProtocolAgent input.installation.agentId)
      (start.listHostsForAgents [input.installation.hostId]).head?
      (start.findAuditEvent ids.auditId) ids) =
    canonicalJson (expectedLegacyAgent input ids context)

/-- The identifiers and the username of the request are not in use. -/
structure FreeInstallation (start : Database) (input : CreateAgent) : Prop where
  agent : ∀ row ∈ start.agents, row.id ≠ input.installation.agentId
  host : ∀ row ∈ start.agentHosts, row.id ≠ input.installation.hostId
  username : ∀ row ∈ start.agentIdentities, row.username ≠ some input.username

/-- The request can be met: its key is valid, and its agent is the one under the key, one of an
earlier version, or one that can be created. -/
def Available (start : Database) (input : CreateAgent) : Prop :=
  match start.findReserved context with
  | some (_, identity) => identity.deletedAt = none
  | none =>
    match start.findIdentity (legacyApplicationAgentLookupIds context).identityId with
    | some identity => MatchesLegacy context start input identity ∧
        ∀ creation ∈ start.agentApplicationCreations, creation.agentIdentityId ≠ identity.id
    | none => FreeInstallation start input

end Start

/-! ## Progress -/

/-- The rows of an installation are inserted. -/
def Database.install (db : Database) (input : AgentInstallation) (hostId : String) : Database :=
  { db with
    agentHosts := db.agentHosts ++ [input.host]
    agents := db.agents ++ [input.protocolAgent]
    agentIdentities := db.agentIdentities ++ [input.identity]
    agentIdentityBindings := db.agentIdentityBindings ++ [{ input.binding with hostId := hostId }]
    agentAuditEvents := db.agentAuditEvents ++ [input.audit]
    agentApplicationCreations := db.agentApplicationCreations ++ [input.reservation] }

/-- A reservation is inserted. -/
def Database.reserve (db : Database) (reservation : AgentApplicationCreation) : Database :=
  { db with agentApplicationCreations := db.agentApplicationCreations ++ [reservation] }

section Progress

variable [Platform] (context : CreationContext) (start : World)

/-- The inputs with which an agent is created for a request. -/
def IsNewInstallation (request : CreateAgent) (input : AgentInstallation) : Prop :=
  ∃ identityId subject bindingId reservationId : ℕ, ∃ auditId now occurredAt,
    start.nextId ≤ identityId ∧ start.nextId ≤ subject ∧ start.nextId ≤ bindingId ∧
      start.nextId ≤ reservationId ∧
        input = newInstallation request context (Platform.generateId identityId)
          (Platform.generateId subject) (Platform.generateId bindingId) auditId
          (Platform.generateId reservationId) now occurredAt

/-- The reservations that are made for a request and an agent of an earlier version. -/
def IsLegacyReservation (request : CreateAgent) (reservation : AgentApplicationCreation) : Prop :=
  ∃ id : ℕ, start.nextId ≤ id ∧ reservation.id = Platform.generateId id ∧
    reservation.isUnder context ∧
      reservation.requestFingerprint = applicationAgentCreationFingerprint request context ∧
        reservation.agentIdentityId = (legacyApplicationAgentLookupIds context).identityId

/-- Nothing is created; or one agent is, with its installation; or one agent of an earlier
version is reserved. -/
inductive Progress : Database → Prop
  | unchanged {db : Database} (same : SameIdentities start.db db) : Progress db
  | created {db : Database} (request : CreateAgent) (input : AgentInstallation) (hostId : String)
      (unreserved : start.db.findReserved context = none)
      (absent : start.db.findIdentity (legacyApplicationAgentLookupIds context).identityId = none)
      (isNew : IsNewInstallation context start request input)
      (same : SameIdentities (start.db.install input hostId) db) : Progress db
  | reserved {db : Database} (request : CreateAgent) (reservation : AgentApplicationCreation)
      (unreserved : start.db.findReserved context = none)
      (present :
        (start.db.findIdentity (legacyApplicationAgentLookupIds context).identityId).isSome = true)
      (isLegacy : IsLegacyReservation context start request reservation)
      (same : SameIdentities (start.db.reserve reservation) db) : Progress db

variable {context start} {db db' : Database}

theorem Progress.congr (h : Progress context start db) (hsame : SameIdentities db db') :
    Progress context start db' := by
  cases h with
  | unchanged same => exact .unchanged (same.trans hsame)
  | created request input hostId unreserved absent isNew same =>
    exact .created request input hostId unreserved absent isNew (same.trans hsame)
  | reserved request reservation unreserved present isLegacy same =>
    exact .reserved request reservation unreserved present isLegacy (same.trans hsame)

theorem IsNewInstallation.isUnder {request : CreateAgent} {input : AgentInstallation}
    (h : IsNewInstallation context start request input) : input.reservation.isUnder context := by
  obtain ⟨_, _, _, _, _, _, _, -, -, -, -, rfl⟩ := h
  exact ⟨rfl, rfl, rfl⟩

theorem IsNewInstallation.live {request : CreateAgent} {input : AgentInstallation}
    (h : IsNewInstallation context start request input) : input.identity.deletedAt = none := by
  obtain ⟨_, _, _, _, _, _, _, -, -, -, -, rfl⟩ := h
  rfl

variable (hopens : context.Opens start)

include hopens

theorem findIdentityRow_install {request : CreateAgent} {input : AgentInstallation}
    {hostId : String} (h : IsNewInstallation context start request input) :
    (start.db.install input hostId).findIdentityRow input.identity.id = some input.identity := by
  obtain ⟨n, _, _, _, _, _, _, hn, -, -, -, rfl⟩ := h
  have hnone : start.db.agentIdentities.find? (fun row => row.id = Platform.generateId n) =
      none := by
    rw [List.find?_eq_none]
    intro row hrow
    simpa using (hopens.freshIdentity n hn row hrow).1
  have hfind : ∀ new : AgentIdentity, new.id = Platform.generateId n →
      (start.db.agentIdentities ++ [new]).find? (fun row => row.id = Platform.generateId n) =
        some new := by
    intro new hid
    rw [List.find?_append, hnone]
    simp [hid]
  exact hfind _ rfl

omit [Platform] hopens in
theorem findCreation_append {reservation : AgentApplicationCreation}
    (hunder : reservation.isUnder context)
    (hnone : start.db.findCreation context.applicationId context.actorUserId
      context.idempotencyKey = none)
    (hcreations : db.agentApplicationCreations =
      start.db.agentApplicationCreations ++ [reservation]) :
    db.findCreation context.applicationId context.actorUserId context.idempotencyKey =
      some reservation := by
  unfold Database.findCreation at hnone ⊢
  rw [hcreations, List.find?_append, hnone]
  simp [hunder.1, hunder.2.1, hunder.2.2]

/-- A reservation refers to an identity that is there. -/
theorem findCreation_of_unreserved (h : start.db.findReserved context = none) :
    start.db.findCreation context.applicationId context.actorUserId context.idempotencyKey =
      none := by
  cases hfind : start.db.findCreation context.applicationId context.actorUserId
      context.idempotencyKey with
  | none => rfl
  | some creation =>
    obtain ⟨identity, hmem, hid⟩ := hopens.reserved creation (List.mem_of_find?_eq_some hfind)
    have hrow : (start.db.findIdentityRow creation.agentIdentityId).isSome = true := by
      rw [Database.findIdentityRow, List.find?_isSome]
      exact ⟨identity, hmem, by simpa using hid⟩
    obtain ⟨row, hrow⟩ := Option.isSome_iff_exists.mp hrow
    simp [Database.findReserved, hfind, hrow] at h

theorem findReserved_install {request : CreateAgent} {input : AgentInstallation}
    {hostId : String} (hnew : start.db.findReserved context = none)
    (h : IsNewInstallation context start request input)
    (hsame : SameIdentities (start.db.install input hostId) db) :
    db.findReserved context = some (input.reservation, input.identity) := by
  rw [hsame.findReserved, Database.findReserved,
    findCreation_append h.isUnder (findCreation_of_unreserved hopens hnew) rfl, Option.bind_some]
  have hid : input.reservation.agentIdentityId = input.identity.id := by
    obtain ⟨_, _, _, _, _, _, _, -, -, -, -, rfl⟩ := h
    rfl
  rw [hid, findIdentityRow_install hopens h]
  rfl

omit [Platform] hopens in
/-- The identity of an agent of an earlier version, in the table of all identities. -/
theorem findIdentityRow_of_findIdentity {id : String} {identity : AgentIdentity}
    (h : start.db.findIdentity id = some identity) :
    ∃ row, start.db.findIdentityRow id = some row := by
  apply Option.isSome_iff_exists.mp
  rw [Database.findIdentityRow, List.find?_isSome]
  have hfound := List.find?_some h
  simp only [Bool.and_eq_true, decide_eq_true_eq] at hfound
  exact ⟨identity, List.mem_of_find?_eq_some h, by simpa using hfound.1⟩

end Progress
end Realmroot
