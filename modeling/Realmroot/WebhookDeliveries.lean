import Realmroot.Library.Debts
import Realmroot.Rules
import Realmroot.Usecases.Webhooks

/-!
# Deliveries in interleavings

Any number of attempts to deliver a request are in progress. As long as no delivery takes back
what another one has written to the request, the request says, when no attempt is in flight, how
many attempts were reserved and whether one of them was answered with success.
-/

namespace Realmroot

open AtomicProgram Program Pool

/-! ## The system -/

inductive DeliveryCall where
  /-- The delivery that follows the event. -/
  | deliver (id idempotencyKey : String)
  /-- `createWebhookDeliveryAttempt`. -/
  | create (id idempotencyKey : String)
  deriving DecidableEq

/-- The request of a call, and its key. -/
def DeliveryCall.key : DeliveryCall → String × String
  | .deliver id idempotencyKey => (id, idempotencyKey)
  | .create id idempotencyKey => (id, idempotencyKey)

inductive DeliveryEvent where
  | elapse (milliseconds : ℕ)
  /-- The tables other than those of requests and attempts change in any way. -/
  | configure (db : Database)

/-- The tables that `configure` keeps. -/
def keepDeliveries (kept db : Database) : Database :=
  { db with
    webhookDeliveryRequests := kept.webhookDeliveryRequests
    webhookDeliveryAttempts := kept.webhookDeliveryAttempts }

section System

variable [Platform]

/-- A call, up to the attempt that it answers. -/
def DeliveryCall.program : DeliveryCall → Request WebhookDeliveryAttempt
  | .deliver id idempotencyKey =>
    (deliverWebhookRequestWithAttempt id idempotencyKey).bind fun result => .pure result.attempt
  | .create id idempotencyKey =>
    (createWebhookDeliveryAttempt id idempotencyKey).bind fun result => .pure result.1

def deliverySystem :
    System Command World Reply Error WebhookDeliveryAttempt DeliveryCall DeliveryEvent where
  program := DeliveryCall.program
  environment
    | .elapse milliseconds, w => { w with clock := w.clock + milliseconds }
    | .configure db, w => { w with db := keepDeliveries w.db db }

end System

abbrev DeliveryAction := Action Reply DeliveryCall DeliveryEvent

/-! ## Requests and their attempts -/

namespace Database

variable (db : Database)

/-- The attempts that are reserved for a request. -/
def attemptsOf (id : String) : List WebhookDeliveryAttempt :=
  db.webhookDeliveryAttempts.filter fun row => row.requestId = id

/-- An attempt of the request was answered with success. -/
def Answered (id : String) : Prop := ∃ attempt ∈ db.attemptsOf id, attempt.status = "delivered"

/-- A request counts its attempts, and is delivered when one of them is. -/
def DeliveriesMatch : Prop :=
  ∀ request ∈ db.webhookDeliveryRequests,
    request.attemptCount = (db.attemptsOf request.id).length ∧
      (request.status = "delivered" ↔ db.Answered request.id)

/-- What every step keeps: an attempt has an identifier and a key of its own, the attempts of a
request are numbered, and a request says nothing of which there is no attempt. -/
structure DeliveriesKept : Prop where
  attempts : Table.Keyed (·.id) db.webhookDeliveryAttempts
  keys : Table.Keyed (fun row => (row.requestId, row.idempotencyKey)) db.webhookDeliveryAttempts
  numbered : ∀ id, ((db.attemptsOf id).map (·.sequence)).Perm
    (List.range' 1 (db.attemptsOf id).length)
  counted : ∀ request ∈ db.webhookDeliveryRequests,
    request.attemptCount ≤ (db.attemptsOf request.id).length
  delivered : ∀ request ∈ db.webhookDeliveryRequests, request.status = "delivered" →
    db.Answered request.id

end Database

/-- The request that a command overwrites. -/
def Command.overwrites? : Command → Option (String × WebhookRequestPatch)
  | .webhook (.updateRequest id patch) => some (id, patch)
  | _ => none

/-- A delivered request stays delivered, and the count grows. -/
def WritesForward (command : Command) (w : World) : Prop :=
  ∀ entry ∈ command.overwrites?, ∀ row ∈ w.db.webhookDeliveryRequests, row.id = entry.1 →
    (row.status = "delivered" → entry.2.status = "delivered") ∧
      ∀ count ∈ entry.2.attemptCount, row.attemptCount < count

instance (command : Command) (w : World) : Decidable (WritesForward command w) :=
  inferInstanceAs (Decidable (∀ entry ∈ command.overwrites?, _))

/-- The command reserves an attempt. -/
def Command.Reserves (command : Command) (w : World) : Prop :=
  ∃ previousAttemptCount row created db,
    command = .webhook (.reserveAttempt previousAttemptCount row) ∧
      Database.insertWebhookAttempt previousAttemptCount row w.db = .ok (some created, db)

/-! ## What a program promises -/

/-- The attempt is completed where it is pending. -/
def CompletesPending (command : Command) (w : World) : Prop :=
  ∀ id patch, command = .webhook (.updateAttempt id patch) →
    ∀ row ∈ w.db.webhookDeliveryAttempts, row.id = id → row.status = "pending"

/-- How the others move the state: an attempt stays what it is once it is completed, and a request
only goes forward. -/
structure DeliveryMove (w t : World) : Prop where
  attempts : ∀ old ∈ w.db.webhookDeliveryAttempts, ∃ new ∈ t.db.webhookDeliveryAttempts,
    new.id = old.id ∧ new.requestId = old.requestId ∧ new.idempotencyKey = old.idempotencyKey ∧
      new.sequence = old.sequence ∧ (old.status ≠ "pending" → new.status = old.status)
  counts : ∀ id, (w.db.attemptsOf id).length ≤ (t.db.attemptsOf id).length
  requests : ∀ new ∈ t.db.webhookDeliveryRequests, ∃ old ∈ w.db.webhookDeliveryRequests,
    new.id = old.id ∧ old.attemptCount ≤ new.attemptCount ∧
      (old.status = "delivered" → new.status = "delivered")

/-- The attempt is in the table, under the request, the key and the number. -/
def ReservedAs (attempt : WebhookDeliveryAttempt) (key : String × String) (w : World) : Prop :=
  ∃ row ∈ w.db.webhookDeliveryAttempts, row.id = attempt.id ∧ row.requestId = key.1 ∧
    row.idempotencyKey = key.2 ∧ row.sequence = attempt.sequence

/-- What is promised of a command on webhooks. -/
def WebhookCommand.KeepsCount (command : WebhookCommand) (w : World) : Prop :=
  match command with
  | .readEndpoint _ => True
  | .updateEndpoint .. => True
  | .reserveAttempt previousAttemptCount row =>
    row.status = "pending" ∧ previousAttemptCount ≤ (w.db.attemptsOf row.requestId).length
  | .updateAttempt _ patch => patch.status ≠ "pending"
  | .updateRequest id patch =>
    (∀ count ∈ patch.attemptCount, count ≤ (w.db.attemptsOf id).length) ∧
      (patch.status = "delivered" → w.db.Answered id)
  | _ => False

def deliveryPromises :
    Promises Command World Reply Error WebhookDeliveryAttempt DeliveryCall where
  inv w := w.db.DeliveriesKept
  moves := DeliveryMove
  cond _ command w := WritesForward command w ∧ CompletesPending command w
  promise _ command w :=
    match command with
    | .read => True
    | .generateId => True
    | .send _ => True
    | .webhook command => command.KeepsCount w
    | _ => False
  post call
    | .ok attempt, w => ReservedAs attempt call.key w
    | .error _, _ => True

/-- What is recorded of an attempt and not yet of its request. -/
inductive DeliveryDebt where
  | count (id : String) (sequence : ℕ)
  | success (id : String)

def deliveryDebts : Debts Command World DeliveryDebt where
  outstanding w
    | .count id sequence => (∃ attempt ∈ w.db.attemptsOf id, attempt.sequence = sequence) ∧
      ∃ request ∈ w.db.webhookDeliveryRequests, request.id = id ∧ request.attemptCount < sequence
    | .success id => w.db.Answered id ∧
      ∃ request ∈ w.db.webhookDeliveryRequests, request.id = id ∧ request.status ≠ "delivered"
  incurs command w debt :=
    match command, debt with
    | .webhook (.reserveAttempt previousAttemptCount row), .count id sequence =>
      ∃ created db, Database.insertWebhookAttempt previousAttemptCount row w.db =
        .ok (some created, db) ∧ created.requestId = id ∧ created.sequence = sequence
    | .webhook (.updateAttempt attemptId patch), .success id => patch.status = "delivered" ∧
      ∃ row ∈ w.db.attemptsOf id, row.id = attemptId
    | _, _ => False

/-! ## Statements -/

theorem foldl_max_range (m n : ℕ) : (List.range' 1 n).foldl max m = max m n := by
  induction n with
  | zero => simp
  | succ n ih =>
    rw [List.range'_1_concat, List.foldl_append, ih]
    simp
    omega

namespace Database

variable {db db' : Database} {id : String}

theorem mem_attemptsOf {attempt : WebhookDeliveryAttempt} :
    attempt ∈ db.attemptsOf id ↔
      attempt ∈ db.webhookDeliveryAttempts ∧ attempt.requestId = id := by
  simp [attemptsOf]

/-- The number of the next attempt. -/
theorem nextSequence_eq (h : db.DeliveriesKept) {previousAttemptCount : ℕ}
    (hprevious : previousAttemptCount ≤ (db.attemptsOf id).length) :
    db.nextSequence id previousAttemptCount = (db.attemptsOf id).length + 1 := by
  have hfold : ((db.attemptsOf id).map (·.sequence)).foldl max previousAttemptCount =
      max previousAttemptCount (db.attemptsOf id).length := by
    rw [(h.numbered id).foldl_eq, foldl_max_range]
  rw [max_eq_right hprevious] at hfold
  rw [nextSequence]
  exact congrArg (· + 1) hfold

/-- A number of an attempt is at most the number of attempts. -/
theorem sequence_le (h : db.DeliveriesKept) {attempt : WebhookDeliveryAttempt}
    (hattempt : attempt ∈ db.attemptsOf id) :
    attempt.sequence ≤ (db.attemptsOf id).length := by
  have hmem := (h.numbered id).mem_iff.mp (List.mem_map_of_mem hattempt)
  rw [List.mem_range'_1] at hmem
  omega

/-- A reservation is refused, or it adds a row with a new identifier and a new key. -/
theorem insertWebhookAttempt_cases {previousAttemptCount : ℕ} {row : WebhookDeliveryAttempt}
    {answer : Option WebhookDeliveryAttempt}
    (h : insertWebhookAttempt previousAttemptCount row db = .ok (answer, db')) :
    (answer = none ∧ db' = db) ∨
      (answer = some { row with
          sequence := db.nextSequence row.requestId previousAttemptCount } ∧
        (∀ old ∈ db.webhookDeliveryAttempts, old.id ≠ row.id ∧
          (old.requestId, old.idempotencyKey) ≠ (row.requestId, row.idempotencyKey)) ∧
        db' = { db with
          webhookDeliveryAttempts := db.webhookDeliveryAttempts ++ [{ row with
            sequence := db.nextSequence row.requestId previousAttemptCount }] }) := by
  unfold insertWebhookAttempt at h
  dsimp only at h
  split_ifs at h with hkey hid
  · cases h
    exact Or.inl ⟨rfl, rfl⟩
  · cases h
    refine Or.inr ⟨rfl, ?_, rfl⟩
    intro old hold
    constructor
    · intro hsame
      exact hid (List.any_eq_true.mpr ⟨old, hold, by simpa using hsame⟩)
    · intro hsame
      obtain ⟨hrequest, hidempotency⟩ := Prod.mk.inj hsame
      apply hkey
      rw [findAttemptByIdempotencyKey, List.find?_isSome]
      exact ⟨old, hold, by simp [hrequest, hidempotency]⟩

/-- The attempts of a request after one more is reserved. -/
theorem attemptsOf_append {row : WebhookDeliveryAttempt}
    (h : db'.webhookDeliveryAttempts = db.webhookDeliveryAttempts ++ [row]) :
    db'.attemptsOf id = db.attemptsOf id ++ if row.requestId = id then [row] else [] := by
  rw [attemptsOf, h, List.filter_append]
  by_cases hid : row.requestId = id <;> simp [attemptsOf, hid]

/-- The attempts of a request after one of them is completed. -/
theorem attemptsOf_updateWhere {p : WebhookDeliveryAttempt → Bool} {patch : WebhookAttemptPatch}
    (h : db'.webhookDeliveryAttempts =
      Table.updateWhere p patch.apply db.webhookDeliveryAttempts) :
    db'.attemptsOf id = Table.updateWhere p patch.apply (db.attemptsOf id) := by
  rw [attemptsOf, h, Table.updateWhere, Table.updateWhere, List.filter_map, attemptsOf]
  congr 1
  apply List.filter_congr
  intro row _
  by_cases hp : p row = true <;> simp [hp, WebhookAttemptPatch.apply]

theorem updateWebhookAttempt_rows {patch : WebhookAttemptPatch}
    {answer : Option WebhookDeliveryAttempt}
    (h : updateWebhookAttempt id patch db = .ok (answer, db')) :
    db'.webhookDeliveryAttempts =
        Table.updateWhere (fun row => row.id = id) patch.apply db.webhookDeliveryAttempts ∧
      db'.webhookDeliveryRequests = db.webhookDeliveryRequests := by
  cases h
  exact ⟨rfl, rfl⟩

/-- What the numbers, the keys and the identifiers are after an attempt is reserved. -/
theorem DeliveriesKept.reserve (h : db.DeliveriesKept) {previousAttemptCount : ℕ}
    {row : WebhookDeliveryAttempt} {answer : Option WebhookDeliveryAttempt}
    (hprevious : previousAttemptCount ≤ (db.attemptsOf row.requestId).length)
    (hok : insertWebhookAttempt previousAttemptCount row db = .ok (answer, db')) :
    db'.DeliveriesKept := by
  rcases insertWebhookAttempt_cases hok with ⟨-, rfl⟩ | ⟨-, hnew, hafter⟩
  · exact h
  rw [nextSequence_eq h hprevious] at hafter
  have hattempts := congrArg webhookDeliveryAttempts hafter
  have hrequests := congrArg webhookDeliveryRequests hafter
  have hof := fun requestId => @attemptsOf_append _ _ requestId _ hattempts
  dsimp only at hattempts hrequests hof
  clear hafter hok
  constructor
  · rw [hattempts]
    exact h.attempts.append_singleton fun old hold => (hnew old hold).1
  · rw [hattempts]
    exact h.keys.append_singleton fun old hold => (hnew old hold).2
  · intro id
    rw [hof id]
    by_cases hid : row.requestId = id
    · subst hid
      simp only [if_true, List.map_append, List.map_cons, List.map_nil, List.length_append,
        List.length_singleton]
      rw [List.range'_1_concat, add_comm 1]
      exact (h.numbered row.requestId).append_right _
    · simpa [hid] using h.numbered id
  · intro request hrequest
    rw [hrequests] at hrequest
    rw [hof request.id, List.length_append]
    have hcounted := h.counted request hrequest
    omega
  · intro request hrequest hdelivered
    rw [hrequests] at hrequest
    obtain ⟨attempt, hattempt, hstatus⟩ := h.delivered request hrequest hdelivered
    refine ⟨attempt, ?_, hstatus⟩
    rw [hof request.id]
    exact List.mem_append_left _ hattempt

/-- What they are after an attempt that was pending is completed. -/
theorem DeliveriesKept.complete (h : db.DeliveriesKept) {patch : WebhookAttemptPatch}
    (hpending : ∀ row ∈ db.webhookDeliveryAttempts, row.id = id → row.status = "pending")
    (hattempts : db'.webhookDeliveryAttempts =
      Table.updateWhere (fun row => row.id = id) patch.apply db.webhookDeliveryAttempts)
    (hrequests : db'.webhookDeliveryRequests = db.webhookDeliveryRequests) :
    db'.DeliveriesKept := by
  have hof := fun requestId => @attemptsOf_updateWhere _ _ requestId _ _ hattempts
  constructor
  · rw [hattempts]
    exact h.attempts.updateWhere fun _ => rfl
  · rw [hattempts]
    exact h.keys.updateWhere fun _ => rfl
  · intro requestId
    have hmap : (Table.updateWhere (fun row => row.id = id) patch.apply
        (db.attemptsOf requestId)).map (·.sequence) = (db.attemptsOf requestId).map (·.sequence) :=
      Table.map_updateWhere fun _ => rfl
    rw [hof requestId, hmap]
    simpa [Table.updateWhere] using h.numbered requestId
  · intro request hrequest
    rw [hrequests] at hrequest
    rw [hof request.id]
    simpa [Table.updateWhere] using h.counted request hrequest
  · intro request hrequest hdelivered
    rw [hrequests] at hrequest
    obtain ⟨attempt, hattempt, hstatus⟩ := h.delivered request hrequest hdelivered
    refine ⟨attempt, ?_, hstatus⟩
    rw [hof request.id]
    apply Table.mem_updateWhere_of_not hattempt
    by_contra hselected
    have hid : attempt.id = id := by simpa using hselected
    have hbefore := hpending attempt (mem_attemptsOf.mp hattempt).1 hid
    rw [hstatus] at hbefore
    simp at hbefore

/-- What they are after a request is overwritten. -/
theorem DeliveriesKept.overwrite (h : db.DeliveriesKept) {patch : WebhookRequestPatch}
    (hcount : ∀ count ∈ patch.attemptCount, count ≤ (db.attemptsOf id).length)
    (hdelivered : patch.status = "delivered" → db.Answered id)
    (hattempts : db'.webhookDeliveryAttempts = db.webhookDeliveryAttempts)
    (hrequests : db'.webhookDeliveryRequests =
      Table.updateWhere (fun row => row.id = id) patch.apply db.webhookDeliveryRequests) :
    db'.DeliveriesKept := by
  have hof : db'.attemptsOf = db.attemptsOf := by
    funext requestId
    rw [attemptsOf, attemptsOf, hattempts]
  have hanswered : db'.Answered = db.Answered := by
    funext requestId
    rw [Answered, Answered, hof]
  constructor
  · rw [hattempts]
    exact h.attempts
  · rw [hattempts]
    exact h.keys
  · rw [hof]
    exact h.numbered
  · intro request hrequest
    rw [hrequests] at hrequest
    rw [hof]
    obtain ⟨old, hold, rfl⟩ := Table.mem_updateWhere.mp hrequest
    split_ifs with hselected
    · have hid : old.id = id := by simpa using hselected
      have hbefore := h.counted old hold
      cases hpatch : patch.attemptCount with
      | none => simpa [WebhookRequestPatch.apply, hpatch] using hbefore
      | some count =>
        have hle := hcount count hpatch
        rw [← hid] at hle
        simpa [WebhookRequestPatch.apply, hpatch] using hle
    · exact h.counted old hold
  · intro request hrequest hstatus
    rw [hrequests] at hrequest
    rw [hanswered]
    obtain ⟨old, hold, rfl⟩ := Table.mem_updateWhere.mp hrequest
    split_ifs at hstatus ⊢ with hselected
    · have hid : old.id = id := by simpa using hselected
      exact hid.symm ▸ hdelivered hstatus
    · exact h.delivered old hold hstatus

end Database

/-! ## Moves -/

theorem DeliveryMove.refl (w : World) : DeliveryMove w w where
  attempts old hold := ⟨old, hold, rfl, rfl, rfl, rfl, fun _ => rfl⟩
  counts _ := le_rfl
  requests new hnew := ⟨new, hnew, rfl, le_rfl, id⟩

theorem DeliveryMove.trans {w t u : World} (h : DeliveryMove w t) (h' : DeliveryMove t u) :
    DeliveryMove w u where
  attempts old hold := by
    obtain ⟨middle, hmiddle, hid, hrequest, hkey, hsequence, hstatus⟩ := h.attempts old hold
    obtain ⟨new, hnew, hid', hrequest', hkey', hsequence', hstatus'⟩ :=
      h'.attempts middle hmiddle
    refine ⟨new, hnew, hid'.trans hid, hrequest'.trans hrequest, hkey'.trans hkey,
      hsequence'.trans hsequence, ?_⟩
    intro hcompleted
    have hmid := hstatus hcompleted
    exact (hstatus' (hmid ▸ hcompleted)).trans hmid
  counts id := (h.counts id).trans (h'.counts id)
  requests new hnew := by
    obtain ⟨middle, hmiddle, hid, hcount, hdelivered⟩ := h'.requests new hnew
    obtain ⟨old, hold, hid', hcount', hdelivered'⟩ := h.requests middle hmiddle
    exact ⟨old, hold, hid.trans hid', hcount'.trans hcount, hdelivered ∘ hdelivered'⟩

/-- The tables of requests and attempts are the same. -/
theorem DeliveryMove.of_same {w t : World}
    (hattempts : t.db.webhookDeliveryAttempts = w.db.webhookDeliveryAttempts)
    (hrequests : t.db.webhookDeliveryRequests = w.db.webhookDeliveryRequests) :
    DeliveryMove w t where
  attempts old hold := ⟨old, hattempts ▸ hold, rfl, rfl, rfl, rfl, fun _ => rfl⟩
  counts id := by
    rw [Database.attemptsOf, Database.attemptsOf, hattempts]
  requests new hnew := ⟨new, hrequests ▸ hnew, rfl, le_rfl, id⟩

theorem Database.DeliveriesKept.same {db db' : Database} (h : db.DeliveriesKept)
    (hattempts : db'.webhookDeliveryAttempts = db.webhookDeliveryAttempts)
    (hrequests : db'.webhookDeliveryRequests = db.webhookDeliveryRequests) :
    db'.DeliveriesKept := by
  have hof : db'.attemptsOf = db.attemptsOf := by
    funext requestId
    rw [attemptsOf, attemptsOf, hattempts]
  constructor
  · rw [hattempts]
    exact h.attempts
  · rw [hattempts]
    exact h.keys
  · rw [hof]
    exact h.numbered
  · rw [hrequests, hof]
    exact h.counted
  · intro request hrequest hdelivered
    rw [Answered, hof]
    exact h.delivered request (hrequests ▸ hrequest) hdelivered

theorem ReservedAs.moved {attempt : WebhookDeliveryAttempt} {key : String × String} {w t : World}
    (h : ReservedAs attempt key w) (hmoves : DeliveryMove w t) : ReservedAs attempt key t := by
  obtain ⟨old, hold, hid, hrequest, hkey, hsequence⟩ := h
  obtain ⟨new, hnew, hid', hrequest', hkey', hsequence', -⟩ := hmoves.attempts old hold
  exact ⟨new, hnew, hid'.trans hid, hrequest'.trans hrequest, hkey'.trans hkey,
    hsequence'.trans hsequence⟩

/-! ## Commands -/

section Commands

variable {w : World}

open Database

/-- The moves of a statement on webhooks, and what it keeps. -/
theorem keeps_webhook {command : WebhookCommand} (h : w.db.DeliveriesKept)
    (hforward : WritesForward (.webhook command) w)
    (hpending : CompletesPending (.webhook command) w) (hpromise : command.KeepsCount w) :
    (command.after w.db).DeliveriesKept ∧ DeliveryMove w { w with db := command.after w.db } := by
  apply Statement.after_keeps
    (p := fun db => db.DeliveriesKept ∧ DeliveryMove w { w with db := db })
    ⟨h, DeliveryMove.refl w⟩
  intro answer db hok
  cases command with
  | readEndpoint id =>
    cases hok
    exact ⟨h, DeliveryMove.refl w⟩
  | updateEndpoint id patch =>
    cases hok
    exact ⟨h.same rfl rfl, .of_same rfl rfl⟩
  | deleteEndpoint id => exact hpromise.elim
  | createRequest row => exact hpromise.elim
  | reserveAttempt previousAttemptCount row =>
    refine ⟨h.reserve hpromise.2 hok, ?_⟩
    rcases insertWebhookAttempt_cases hok with ⟨-, rfl⟩ | ⟨-, -, rfl⟩
    · exact DeliveryMove.refl w
    constructor
    · exact fun old hold =>
        ⟨old, List.mem_append_left _ hold, rfl, rfl, rfl, rfl, fun _ => rfl⟩
    · intro id
      simp [attemptsOf, List.filter_append]
    · exact fun new hnew => ⟨new, hnew, rfl, le_rfl, id⟩
  | updateAttempt id patch =>
    obtain ⟨hattempts, hrequests⟩ := updateWebhookAttempt_rows hok
    have hcompletes := hpending id patch rfl
    refine ⟨h.complete hcompletes hattempts hrequests, ?_, ?_, ?_⟩
    · intro old hold
      refine ⟨_, hattempts ▸ Table.mem_updateWhere.mpr ⟨old, hold, rfl⟩, ?_⟩
      split_ifs with hselected
      · have hbefore := hcompletes old hold (by simpa using hselected)
        exact ⟨rfl, rfl, rfl, rfl, fun hcompleted => absurd hbefore hcompleted⟩
      · exact ⟨rfl, rfl, rfl, rfl, fun _ => rfl⟩
    · intro requestId
      rw [attemptsOf_updateWhere hattempts]
      simp [Table.updateWhere]
    · exact fun new hnew => ⟨new, hrequests ▸ hnew, rfl, le_rfl, fun hstatus => hstatus⟩
  | updateRequest id patch =>
    cases hok
    refine ⟨h.overwrite hpromise.1 hpromise.2 rfl rfl, ?_, fun _ => le_rfl, ?_⟩
    · exact fun old hold => ⟨old, hold, rfl, rfl, rfl, rfl, fun _ => rfl⟩
    · intro new hnew
      obtain ⟨old, hold, rfl⟩ := Table.mem_updateWhere.mp hnew
      refine ⟨old, hold, ?_⟩
      split_ifs with hselected
      · obtain ⟨hstays, hgrows⟩ := hforward _ rfl old hold (by simpa using hselected)
        refine ⟨rfl, ?_, hstays⟩
        cases hpatch : patch.attemptCount with
        | none => simp [WebhookRequestPatch.apply, hpatch]
        | some count =>
          have hless := hgrows count hpatch
          simp only [WebhookRequestPatch.apply, hpatch, Option.getD_some]
          omega
      · exact ⟨rfl, le_rfl, fun hstatus => hstatus⟩

/-- A debt that is outstanding after a statement was outstanding before, or is incurred by it. -/
theorem debts_webhook {command : WebhookCommand} (hforward : WritesForward (.webhook command) w)
    (hpromise : command.KeepsCount w) {debt : DeliveryDebt}
    (hdebt : deliveryDebts.outstanding { w with db := command.after w.db } debt) :
    deliveryDebts.outstanding w debt ∨ deliveryDebts.incurs (.webhook command) w debt := by
  revert hdebt
  apply Statement.after_keeps
    (p := fun db => deliveryDebts.outstanding { w with db := db } debt →
      deliveryDebts.outstanding w debt ∨ deliveryDebts.incurs (.webhook command) w debt) Or.inl
  intro answer db hok hdebt
  cases command with
  | readEndpoint id =>
    cases hok
    exact Or.inl hdebt
  | updateEndpoint id patch =>
    cases hok
    exact Or.inl hdebt
  | deleteEndpoint id => exact hpromise.elim
  | createRequest row => exact hpromise.elim
  | reserveAttempt previousAttemptCount row =>
    have hbatch := hok
    rcases insertWebhookAttempt_cases hok with ⟨-, rfl⟩ | ⟨rfl, -, hafter⟩
    · exact Or.inl hdebt
    have hattempts := congrArg webhookDeliveryAttempts hafter
    have hrequests := congrArg webhookDeliveryRequests hafter
    dsimp only at hattempts hrequests
    cases debt with
    | count id sequence =>
      obtain ⟨⟨attempt, hattempt, hsequence⟩, request, hrequest, hlater⟩ := hdebt
      rw [attemptsOf_append hattempts] at hattempt
      rw [hrequests] at hrequest
      rcases List.mem_append.mp hattempt with hold | hnew
      · exact Or.inl ⟨⟨attempt, hold, hsequence⟩, request, hrequest, hlater⟩
      · split_ifs at hnew with hid
        · cases List.mem_singleton.mp hnew
          exact Or.inr ⟨_, db, hbatch, hid, hsequence⟩
        · cases hnew
    | success id =>
      obtain ⟨⟨attempt, hattempt, hstatus⟩, request, hrequest, hother⟩ := hdebt
      rw [attemptsOf_append hattempts] at hattempt
      rw [hrequests] at hrequest
      rcases List.mem_append.mp hattempt with hold | hnew
      · exact Or.inl ⟨⟨attempt, hold, hstatus⟩, request, hrequest, hother⟩
      · split_ifs at hnew
        · cases List.mem_singleton.mp hnew
          have hpending := hpromise.1
          rw [hstatus] at hpending
          simp at hpending
        · cases hnew
  | updateAttempt id patch =>
    obtain ⟨hattempts, hrequests⟩ := updateWebhookAttempt_rows hok
    cases debt with
    | count requestId sequence =>
      obtain ⟨⟨attempt, hattempt, hsequence⟩, hrequest⟩ := hdebt
      rw [attemptsOf_updateWhere hattempts] at hattempt
      rw [hrequests] at hrequest
      obtain ⟨old, hold, rfl⟩ := Table.mem_updateWhere.mp hattempt
      refine Or.inl ⟨⟨old, hold, ?_⟩, hrequest⟩
      split_ifs at hsequence
      · exact hsequence
      · exact hsequence
    | success requestId =>
      obtain ⟨⟨attempt, hattempt, hstatus⟩, hrequest⟩ := hdebt
      rw [attemptsOf_updateWhere hattempts] at hattempt
      rw [hrequests] at hrequest
      obtain ⟨old, hold, rfl⟩ := Table.mem_updateWhere.mp hattempt
      split_ifs at hstatus with hselected
      · exact Or.inr ⟨hstatus, old, hold, by simpa using hselected⟩
      · exact Or.inl ⟨⟨old, hold, hstatus⟩, hrequest⟩
  | updateRequest id patch =>
    cases hok
    have hmoved := fun row hrow => hforward (id, patch) rfl row hrow
    cases debt with
    | count requestId sequence =>
      obtain ⟨hattempt, request, hrequest, hid, hlater⟩ := hdebt
      refine Or.inl ⟨hattempt, ?_⟩
      obtain ⟨old, hold, rfl⟩ := Table.mem_updateWhere.mp hrequest
      refine ⟨old, hold, ?_⟩
      split_ifs at hid hlater with hselected
      · refine ⟨hid, ?_⟩
        cases hpatch : patch.attemptCount with
        | none => simpa [WebhookRequestPatch.apply, hpatch] using hlater
        | some count =>
          have hless := (hmoved old hold (by simpa using hselected)).2 count hpatch
          simp only [WebhookRequestPatch.apply, hpatch, Option.getD_some] at hlater
          omega
      · exact ⟨hid, hlater⟩
    | success requestId =>
      obtain ⟨hanswered, request, hrequest, hid, hother⟩ := hdebt
      refine Or.inl ⟨hanswered, ?_⟩
      obtain ⟨old, hold, rfl⟩ := Table.mem_updateWhere.mp hrequest
      refine ⟨old, hold, ?_⟩
      split_ifs at hid hother with hselected
      · refine ⟨hid, ?_⟩
        intro hdelivered
        exact hother ((hmoved old hold (by simpa using hselected)).1 hdelivered)
      · exact ⟨hid, hother⟩

end Commands

end Realmroot
