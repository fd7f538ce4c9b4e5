import Realmroot.DeliveryPrograms
import Realmroot.Library.Names

/-!
# Deliveries in runs

Of any number of attempts in progress, none takes over the attempt of another one, and where none
is in flight the requests say what was reserved and what was answered.
-/

namespace Realmroot

open AtomicProgram Program Pool

/-- What the statements of a delivery do, and what the others may do. -/
theorem deliveryPromises_sound [Platform] : deliveryPromises.Sound deliverySystem where
  refl := DeliveryMove.refl
  trans := DeliveryMove.trans
  stable call r s t h hmoves := by
    cases r with
    | ok attempt => exact ReservedAs.moved h hmoves
    | error e => trivial
  program call w _ := call_meets
  exec call command w hinv hcond hpromise := by
    cases command with
    | read => exact ⟨hinv, DeliveryMove.refl w⟩
    | generateId => exact ⟨hinv.same rfl rfl, .of_same rfl rfl⟩
    | send request => exact ⟨hinv, DeliveryMove.refl w⟩
    | webhook command => exact keeps_webhook hinv hcond.1 hcond.2 hpromise
    | _ => exact hpromise.elim
  environment event w hinv := by
    cases event with
    | elapse milliseconds => exact ⟨hinv.same rfl rfl, .of_same rfl rfl⟩
    | configure db => exact ⟨hinv.same rfl rfl, .of_same rfl rfl⟩

theorem delivery_solvent [Platform] : Solvent deliverySystem deliveryPromises deliveryDebts where
  exec call command w debt hinv hcond hpromise hdebt := by
    cases command with
    | read => exact Or.inl hdebt
    | generateId => exact Or.inl hdebt
    | send request => exact Or.inl hdebt
    | webhook command => exact debts_webhook hcond.1 hpromise hdebt
    | _ => exact hpromise.elim
  environment event w debt _ hdebt := by
    cases event with
    | elapse milliseconds => exact hdebt
    | configure db => exact hdebt
  program call w _ := call_pays

/-! ## Identifiers of attempts -/

/-- An identifier is stored when its attempt is completed. -/
def attemptNames [Platform] : Naming Command World String where
  generates
    | .generateId, w, n => n = Platform.generateId w.nextId
    | _, _, _ => False
  stores
    | .read, _ => False
    | .generateId, _ => False
    | .send _, _ => False
    | .webhook (.readEndpoint _), _ => False
    | .webhook (.updateEndpoint ..), _ => False
    | .webhook (.updateRequest ..), _ => False
    | .webhook (.reserveAttempt _ row), _ => row.status ≠ "pending"
    | .webhook (.updateAttempt id _), n => n = id
    | _, _ => True
  used w n := ∃ k < w.nextId, n = Platform.generateId k
  stored w n := ∃ row ∈ w.db.webhookDeliveryAttempts, row.id = n ∧ row.status ≠ "pending"

section Names

variable [Platform] {α β : Type} {own : String → Prop} {post : β → (String → Prop) → Prop}
  {w : World}

/-- A command that neither generates an identifier nor completes an attempt. -/
def AttemptNameless (c : Command) : Prop :=
  (∀ n, ¬ attemptNames.stores c n) ∧ ∀ w n, ¬ attemptNames.generates c w n

theorem linear_attemptNameless {p : Request α} {next : α → Request β} (hp : p.Uses AttemptNameless)
    (h : ∀ a, (next a).Linear attemptNames post own) :
    (p.bind next).Linear attemptNames post own := by
  apply Linear.bind
  refine (Uses.linear own hp).mono ?_
  rintro a own' rfl
  exact h a

theorem attemptNameless_read : AttemptNameless .read := ⟨fun _ => id, fun _ _ => id⟩

theorem linear_executeWebhook {command : WebhookCommand} {next : command.Answer → Request β}
    (hstores : ∀ n, attemptNames.stores (.webhook command) n → own n)
    (h : ∀ a own', (next a).Linear attemptNames post own') :
    (executeWebhook command >>= next).Linear attemptNames post own := by
  apply Linear.bind
  refine ⟨hstores, fun s => ?_⟩
  dsimp only
  split
  · exact h _ _
  · trivial

theorem linear_attemptId {next : String → Request β}
    (h : ∀ id own', own' id → (next id).Linear attemptNames post own') :
    (generateId >>= next).Linear attemptNames post own :=
  ⟨fun _ hn => hn.elim, fun _ => h _ _ (Or.inr rfl)⟩

theorem readEndpoint_nameless (id : String) (select : Database → α) :
    (queryAs (.webhook (.readEndpoint id)) select).Uses AttemptNameless :=
  ⟨⟨fun _ h => h, fun _ _ h => h⟩, fun _ => trivial⟩

theorem updateDelivery_nameless (id : String) (patch : WebhookRequestPatch) :
    (updateDelivery id patch).Uses AttemptNameless := by
  apply uses_bind (uses_perform.mpr ⟨fun _ h => h, fun _ _ h => h⟩)
  intro updated
  apply uses_bind uses_orThrow
  intro row
  apply uses_bind (uses_query.mpr attemptNameless_read)
  intro found
  exact uses_bind uses_orThrow fun _ => trivial

/-- A delivery completes the attempt that it reserved. -/
theorem deliverAttempt_linear (endpoint : WebhookEndpoint) (current : WebhookDeliveryRequest)
    (body : Json) (attempt : WebhookDeliveryAttempt) (attemptedAt : Time)
    (hown : own attempt.id) :
    (deliverAttempt endpoint current body attempt attemptedAt).Linear attemptNames
      (fun _ _ => True) own := by
  unfold deliverAttempt
  apply linear_attemptNameless (updateDelivery_nameless ..)
  intro updated
  apply linear_attemptNameless (outcome_uses attemptNameless_read
    (fun _ => ⟨fun _ h => h, fun _ _ h => h⟩) (fun _ _ => ⟨fun _ h => h, fun _ _ h => h⟩) ..)
  intro outcome
  apply linear_attemptNameless (uses_currentTime.mpr attemptNameless_read)
  intro completedAt
  apply Linear.bind
  apply linear_executeWebhook
  · rintro n rfl
    exact hown
  intro updatedAttempt own'
  refine (Uses.linear own' uses_orThrow).mono ?_
  intro completed own'' _
  exact linear_attemptNameless (updateDelivery_nameless ..) fun updated => trivial

/-- What a reservation answers when its row was there before owns no attempt. -/
theorem foundAttempt_linear {requestId idempotencyKey : String} {e : Error} :
    (query (·.findAttemptByIdempotencyKey requestId idempotencyKey) >>= fun found =>
      (orThrow e found >>= fun existing =>
        .pure (existing, false) : Request (WebhookDeliveryAttempt × Bool))).Linear attemptNames
      (fun reservation own' => reservation.2 = true → own' reservation.1.id) own := by
  apply linear_attemptNameless (uses_query.mpr attemptNameless_read)
  intro found
  apply linear_attemptNameless uses_orThrow
  rintro existing ⟨⟩

/-- A reservation answers the attempt of its row, or one that was there before. -/
theorem reserveAttempt_linear {previousAttemptCount : ℕ} {row : WebhookDeliveryAttempt}
    (hpending : row.status = "pending") (hown : own row.id) :
    (reserveAttempt previousAttemptCount row).Linear attemptNames
      (fun reservation own' => reservation.2 = true → own' reservation.1.id) own := by
  apply Linear.bind
  refine ⟨fun n hn => absurd hpending hn, fun s => ?_⟩
  have hafter : attemptNames.after (Command.webhook (.reserveAttempt previousAttemptCount row)) s
      own row.id := Or.inl ⟨hown, fun hn => hn hpending⟩
  dsimp only
  split
  · rename_i answer db hok
    cases answer with
    | some created =>
      intro _
      have hid := (reservedAs_of_ok hok).1
      exact hid.symm ▸ hafter
    | none =>
      exact foundAttempt_linear
  · trivial

theorem deliverWebhookRequestWithAttempt_linear (id idempotencyKey : String) :
    (deliverWebhookRequestWithAttempt id idempotencyKey).Linear attemptNames
      (fun _ _ => True) own := by
  unfold deliverWebhookRequestWithAttempt
  apply linear_attemptNameless (uses_query.mpr attemptNameless_read)
  intro found
  apply linear_attemptNameless uses_orThrow
  intro current
  apply linear_attemptNameless (readEndpoint_nameless ..)
  intro foundEndpoint
  apply linear_attemptNameless uses_orThrow
  intro endpoint
  apply linear_attemptNameless uses_orThrow
  intro body
  apply linear_attemptNameless (uses_currentTime.mpr attemptNameless_read)
  intro attemptedAt
  apply linear_attemptId
  intro attemptId own' hown
  apply Linear.bind
  refine (reserveAttempt_linear rfl hown).mono ?_
  intro reservation own'' hreserved
  split_ifs with hcreated
  · exact deliverAttempt_linear _ _ _ _ _ (hreserved hcreated)
  · trivial

theorem createWebhookDeliveryAttempt_linear (id idempotencyKey : String) :
    (createWebhookDeliveryAttempt id idempotencyKey).Linear attemptNames (fun _ _ => True) own := by
  unfold createWebhookDeliveryAttempt
  apply linear_attemptNameless (uses_query.mpr attemptNameless_read)
  intro found
  apply linear_attemptNameless uses_orThrow
  intro current
  apply linear_attemptNameless (uses_query.mpr attemptNameless_read)
  intro existing
  cases existing with
  | some attempt => trivial
  | none =>
    apply linear_attemptNameless uses_throwIf
    intro _
    apply Linear.bind
    exact (deliverWebhookRequestWithAttempt_linear id idempotencyKey).mono fun _ _ _ => trivial

theorem attempts_lawful : Lawful deliverySystem attemptNames where
  fresh c w n hgenerates := by
    rintro ⟨k, hk, hn⟩
    cases c with
    | generateId =>
      have hsame := Platform.generateId_inj.mp (hgenerates.symm.trans hn)
      omega
    | _ => exact hgenerates
  generated c w n hgenerates := by
    cases c with
    | generateId => exact ⟨w.nextId, Nat.lt_succ_self _, hgenerates⟩
    | _ => exact hgenerates.elim
  used c w n hused := by
    obtain ⟨k, hk, hn⟩ := hused
    exact ⟨k, hk.trans_le (nextId_exec c w), hn⟩
  stored c w n h := by
    cases c with
    | read => exact Or.inl h
    | generateId => exact Or.inl h
    | send request => exact Or.inl h
    | webhook command =>
      cases command with
      | readEndpoint id => exact Or.inl h
      | updateEndpoint id patch => exact Or.inl h
      | updateRequest id patch => exact Or.inl h
      | reserveAttempt previousAttemptCount row =>
        revert h
        apply Statement.after_keeps (p := fun db => (∃ row ∈ db.webhookDeliveryAttempts,
          row.id = n ∧ row.status ≠ "pending") → attemptNames.stored w n ∨
            attemptNames.stores (.webhook (.reserveAttempt previousAttemptCount row)) n) Or.inl
        intro answer db hok h
        rcases Database.insertWebhookAttempt_cases hok with ⟨-, rfl⟩ | ⟨-, -, rfl⟩
        · exact Or.inl h
        · obtain ⟨new, hnew, hid, hcompleted⟩ := h
          rcases List.mem_append.mp hnew with hold | hadded
          · exact Or.inl ⟨new, hold, hid, hcompleted⟩
          · rw [List.mem_singleton.mp hadded] at hcompleted
            exact Or.inr hcompleted
      | updateAttempt id patch =>
        obtain ⟨new, hnew, hid, hcompleted⟩ := h
        obtain ⟨old, hold, rfl⟩ := Table.mem_updateWhere.mp hnew
        split_ifs at hid hcompleted with hselected
        · have hsame : old.id = id := by simpa using hselected
          exact Or.inr (hid.symm.trans hsame)
        · exact Or.inl ⟨old, hold, hid, hcompleted⟩
      | _ => exact Or.inr trivial
    | _ => exact Or.inr trivial
  used_environment event w n hused := by
    cases event with
    | elapse milliseconds => exact hused
    | configure db => exact hused
  stored_environment event w n h := by
    cases event with
    | elapse milliseconds => exact h
    | configure db => exact h
  linear call := by
    cases call with
    | deliver id idempotencyKey =>
      apply Linear.bind
      exact (deliverWebhookRequestWithAttempt_linear id idempotencyKey).mono fun _ _ _ => trivial
    | create id idempotencyKey =>
      apply Linear.bind
      exact (createWebhookDeliveryAttempt_linear id idempotencyKey).mono fun _ _ _ => trivial

end Names

/-! ## Who reserves -/

/-- The command completes an attempt. -/
def Command.Completes : Command → Prop
  | .webhook (.updateAttempt ..) => True
  | _ => False

section Precedes

variable [Platform]

/-- The requests that reserve before they complete. -/
def ReservesFirst {α : Type} (p : Request α) : Prop :=
  p.Precedes Command.Reserves Command.Completes

omit [Platform] in
theorem reservesFirst_bind {α β : Type} {p : Request α} {next : α → Request β}
    (hp : p.Uses fun c => ¬ c.Completes) (h : ∀ a, ReservesFirst (next a)) :
    ReservesFirst (p.bind next) := Precedes.bind hp h

omit [Platform] in
theorem not_completes_read : ¬ Command.Completes .read := id

omit [Platform] in
/-- What follows a reservation only matters where nothing is reserved. -/
theorem reservesFirst_reserve {α : Type} {previousAttemptCount : ℕ} {row : WebhookDeliveryAttempt}
    {next : Option WebhookDeliveryAttempt → Request α} (hnone : ReservesFirst (next none)) :
    ReservesFirst ((executeWebhook (.reserveAttempt previousAttemptCount row)).bind next) := by
  refine ⟨fun h => h, ?_⟩
  intro s hnot
  cases hok : (WebhookCommand.reserveAttempt previousAttemptCount row).statement s.db with
  | error e =>
    dsimp only
    rw [hok]
    trivial
  | ok result =>
    obtain ⟨answer, db⟩ := result
    dsimp only
    rw [hok]
    cases answer with
    | some created => exact absurd ⟨_, _, created, db, rfl, hok⟩ hnot
    | none => exact hnone

theorem deliverWebhookRequestWithAttempt_reservesFirst (id idempotencyKey : String) :
    ReservesFirst (deliverWebhookRequestWithAttempt id idempotencyKey) := by
  unfold deliverWebhookRequestWithAttempt
  apply reservesFirst_bind (uses_query.mpr not_completes_read)
  intro found
  apply reservesFirst_bind uses_orThrow
  intro current
  apply reservesFirst_bind (p := queryAs (.webhook (.readEndpoint current.1.endpointId)) _)
    ⟨fun h => h, fun _ => trivial⟩
  intro foundEndpoint
  apply reservesFirst_bind uses_orThrow
  intro endpoint
  apply reservesFirst_bind uses_orThrow
  intro body
  apply reservesFirst_bind (uses_currentTime.mpr not_completes_read)
  intro attemptedAt
  apply reservesFirst_bind (uses_generateId.mpr fun h => h)
  intro attemptId
  unfold reserveAttempt
  rw [Program.bind_eq, Program.bind_eq, Program.bind_assoc]
  apply reservesFirst_reserve
  dsimp only
  rw [Program.bind_eq, Program.bind_assoc]
  apply reservesFirst_bind (uses_query.mpr not_completes_read)
  intro foundAttempt
  rw [Program.bind_eq, Program.bind_assoc]
  apply reservesFirst_bind uses_orThrow
  intro existing
  trivial

theorem createWebhookDeliveryAttempt_reservesFirst (id idempotencyKey : String) :
    ReservesFirst (createWebhookDeliveryAttempt id idempotencyKey) := by
  unfold createWebhookDeliveryAttempt
  apply reservesFirst_bind (uses_query.mpr not_completes_read)
  intro found
  apply reservesFirst_bind uses_orThrow
  intro current
  apply reservesFirst_bind (uses_query.mpr not_completes_read)
  intro existing
  cases existing with
  | some attempt => trivial
  | none =>
    apply reservesFirst_bind uses_throwIf
    intro _
    exact Precedes.map (deliverWebhookRequestWithAttempt_reservesFirst ..) _

theorem call_reservesFirst (call : DeliveryCall) : ReservesFirst (deliverySystem.program call) := by
  cases call with
  | deliver id idempotencyKey =>
    exact Precedes.map (deliverWebhookRequestWithAttempt_reservesFirst ..) _
  | create id idempotencyKey =>
    exact Precedes.map (createWebhookDeliveryAttempt_reservesFirst ..) _

end Precedes

/-! ## Runs -/

section Runs

variable [Platform] {w : World} {schedule : List DeliveryAction}

/-- A state before the calls: what the tables say of requests and attempts agrees, and the
completed attempts are not those that will be generated. -/
structure DeliveriesStart (w : World) : Prop where
  kept : w.db.DeliveriesKept
  agree : w.db.DeliveriesMatch
  generated : ∀ row ∈ w.db.webhookDeliveryAttempts, row.status ≠ "pending" →
    ∃ k < w.nextId, row.id = Platform.generateId k

/-- Every call that has reserved an attempt has ended. -/
def NoneInFlight (w : World) (schedule : List DeliveryAction) : Prop :=
  ∀ i call p, ((idle w).run deliverySystem schedule).procs[i]? = some (call, p) →
    p.result? = none →
      ∀ entry ∈ (idle w).commandsOf deliverySystem i schedule, ¬ entry.1.Reserves entry.2

theorem completesPending_run (hstart : DeliveriesStart w) :
    ∀ entry ∈ (idle w).history deliverySystem schedule,
      CompletesPending entry.2.1 entry.2.2 := by
  intro entry hentry id patch hcommand row hrow hid
  have hseparate : Separate attemptNames (fun _ _ => False)
      (idle w : Pool Command World Reply Error WebhookDeliveryAttempt DeliveryCall) := by
    apply separate_idle
    rintro n ⟨old, hold, rfl, hcompleted⟩
    exact hstart.generated old hold hcompleted
  have hunstored := hseparate.history attempts_lawful schedule entry hentry id
  rw [hcommand] at hunstored
  by_contra hcompleted
  exact hunstored rfl ⟨row, hrow, hid, hcompleted⟩

/-- No request is in debt before the calls. -/
theorem DeliveriesStart.settled (hstart : DeliveriesStart w) (debt : DeliveryDebt) :
    ¬ deliveryDebts.outstanding w debt := by
  cases debt with
  | count id sequence =>
    rintro ⟨⟨attempt, hattempt, hsequence⟩, request, hrequest, rfl, hless⟩
    have hle := Database.sequence_le hstart.kept hattempt
    have hcount := (hstart.agree request hrequest).1
    omega
  | success id =>
    rintro ⟨hanswered, request, hrequest, rfl, hother⟩
    exact hother ((hstart.agree request hrequest).2.mpr hanswered)

omit [Platform] in
/-- Where no request is in debt, what the tables say agrees. -/
theorem deliveriesMatch_of_settled {db : Database} (hkept : db.DeliveriesKept)
    (hsettled : ∀ debt, ¬ deliveryDebts.outstanding { w with db := db } debt) :
    db.DeliveriesMatch := by
  intro request hrequest
  have hcounted := hkept.counted request hrequest
  refine ⟨?_, hkept.delivered request hrequest, ?_⟩
  · by_contra hother
    have hlast : (db.attemptsOf request.id).length ∈
        (db.attemptsOf request.id).map (·.sequence) := by
      rw [(hkept.numbered request.id).mem_iff, List.mem_range'_1]
      omega
    obtain ⟨attempt, hattempt, hsequence⟩ := List.mem_map.mp hlast
    apply hsettled (.count request.id (db.attemptsOf request.id).length)
    refine ⟨⟨attempt, hattempt, hsequence⟩, request, hrequest, rfl, ?_⟩
    omega
  · intro hanswered
    by_contra hother
    exact hsettled (.success request.id) ⟨hanswered, request, hrequest, rfl, hother⟩

/-- In a run whose calls take nothing back, the calls with one key answer one attempt, and where
none is in flight a request counts its attempts and is delivered when one of them is. -/
theorem deliveries_settle (hstart : DeliveriesStart w)
    (hforward : ∀ entry ∈ (idle w).history deliverySystem schedule,
      WritesForward entry.2.1 entry.2.2) :
    Table.Keyed (fun row => (row.requestId, row.idempotencyKey))
        ((idle w).run deliverySystem schedule).state.db.webhookDeliveryAttempts ∧
      (∀ (i j : ℕ) (call call' : DeliveryCall) (attempt attempt' : WebhookDeliveryAttempt),
        ((idle w).run deliverySystem schedule).procs[i]? = some (call, Program.pure attempt) →
        ((idle w).run deliverySystem schedule).procs[j]? = some (call', Program.pure attempt') →
        call.key = call'.key →
          attempt.id = attempt'.id ∧ attempt.sequence = attempt'.sequence) ∧
      (NoneInFlight w schedule →
        ((idle w).run deliverySystem schedule).state.db.DeliveriesMatch) := by
  have hanswers : ∀ i reply, Action.advance i reply ∈ schedule → deliveryPromises.answers reply :=
    fun _ _ _ => trivial
  have hcond : ∀ entry ∈ (idle w).history deliverySystem schedule,
      deliveryPromises.cond entry.1 entry.2.1 entry.2.2 := by
    intro entry hentry
    exact ⟨hforward entry hentry, completesPending_run hstart entry hentry⟩
  have hrun := deliveryPromises_sound.run hstart.kept hanswers hcond
  have hkept : ((idle w).run deliverySystem schedule).state.db.DeliveriesKept := hrun.state
  refine ⟨hkept.keys, ?_, ?_⟩
  · intro i j call call' attempt attempt' hi hj hkey
    obtain ⟨row, hrow, hid, hrequest, hidempotency, hsequence⟩ :
        ReservedAs attempt call.key _ := hrun.finished (List.mem_of_getElem? hi) rfl
    obtain ⟨row', hrow', hid', hrequest', hidempotency', hsequence'⟩ :
        ReservedAs attempt' call'.key _ := hrun.finished (List.mem_of_getElem? hj) rfl
    have hsame : row = row' := by
      apply hkept.keys.eq_of_key hrow hrow'
      rw [hrequest, hrequest', hidempotency, hidempotency', hkey]
    subst hsame
    exact ⟨hid.symm.trans hid', hsequence.symm.trans hsequence'⟩
  · intro hnone
    apply deliveriesMatch_of_settled (w := ((idle w).run deliverySystem schedule).state) hkept
    intro debt hdebt
    obtain ⟨i, call, p, hget, hrunning, entry, hentry, hincurs⟩ :=
      delivery_solvent.owner deliveryPromises_sound hstart.kept hanswers hcond hstart.settled hdebt
    have hnever := hnone i call p hget hrunning
    have hcompletes : ¬ entry.1.Completes := by
      intro hcompletes
      obtain ⟨reserved, hreserved, hreserves⟩ :=
        commandsOf_precedes call_reservesFirst schedule (by simp) entry hentry hcompletes
      exact hnever reserved hreserved hreserves
    obtain ⟨command, t⟩ := entry
    cases command with
    | webhook command =>
      cases command with
      | reserveAttempt previousAttemptCount row =>
        cases debt with
        | count id sequence =>
          obtain ⟨created, db, hok, -⟩ := hincurs
          exact hnever _ hentry ⟨_, _, created, db, rfl, hok⟩
        | success id => exact hincurs
      | updateAttempt id patch => exact hcompletes trivial
      | _ => exact hincurs
    | _ => exact hincurs

end Runs

/-! ## A success that is overwritten -/

namespace DeliveryExample

@[reducible] def platform : Platform :=
  { samplePlatform with openSecret := fun sealed _ => some sealed }

attribute [local instance] platform

def endpoint : WebhookEndpoint :=
  { id := "endpoint", organizationId := none, url := "https://hooks.example"
    events := ["user.created"], enabled := true, signingSecret := "v1.secret"
    secretPrefix := "secret", createdAt := 0, updatedAt := 0 }

def delivery : WebhookDeliveryRequest :=
  { id := "request", endpointId := "endpoint", event := "user.created", status := "pending"
    attemptCount := 0, httpStatus := none, error := none
    requestBody := some (.obj [("id", .str "evt_1")]), responseBody := none
    nextAttemptAt := some 0, createdAt := 0, updatedAt := 0 }

def start : World :=
  { db := { webhookEndpoints := [endpoint], webhookDeliveryRequests := [delivery] }
    clock := 1000, nextId := 0 }

/-- The answer of the endpoint. -/
def answer (status : ℕ) : Reply := { respond := fun _ => some { status := status } }

def steps (count i status : ℕ) : List DeliveryAction :=
  List.replicate count (.advance i (answer status))

def initial : DeliveryCall := .deliver "request" "initial:request"

def again : DeliveryCall := .create "request" "again"

/-- The first attempt is answered last. -/
def slow : List DeliveryAction :=
  [.start initial] ++ steps 8 0 500 ++ [.start again] ++ steps 17 1 200 ++ steps 7 0 500

/-- The first attempt is reserved first and counted last. -/
def late : List DeliveryAction :=
  [.start initial] ++ steps 5 0 200 ++ [.start again] ++ steps 17 1 200 ++ steps 10 0 200

/-- One attempt after the other. -/
def consecutive : List DeliveryAction :=
  [.start initial] ++ steps 15 0 500 ++ [.start again] ++ steps 17 1 200

/-- The request that was delivered ends as failed, and the attempt that starts last takes the count
back; every call has ended. -/
theorem success_overwritten :
    let P := (idle start).run deliverySystem slow
    let Q := (idle start).run deliverySystem late
    ((∀ entry ∈ P.procs, entry.2.result? ≠ none) ∧
      P.state.db.webhookDeliveryRequests.map (fun row => (row.status, row.attemptCount)) =
        [("failed", 2)] ∧
      P.state.db.webhookDeliveryAttempts.map (fun row => (row.requestId, row.status)) =
        [("request", "failed"), ("request", "delivered")]) ∧
    (∀ entry ∈ Q.procs, entry.2.result? ≠ none) ∧
      Q.state.db.webhookDeliveryRequests.map (fun row => (row.id, row.attemptCount)) =
        [("request", 1)] ∧
      Q.state.db.webhookDeliveryAttempts.map (fun row => (row.requestId, row.sequence)) =
        [("request", 1), ("request", 2)] := by
  decide +kernel

theorem deliveriesStart_start : DeliveriesStart start where
  kept :=
    { attempts := List.nodup_nil
      keys := List.nodup_nil
      numbered := fun _ => List.Perm.refl _
      counted := by simp [start, delivery]
      delivered := by simp [start, delivery] }
  agree := by simp [start, delivery, Database.DeliveriesMatch, Database.Answered,
    Database.attemptsOf]
  generated := by simp [start]

/-- The request counts the failure and the success. -/
theorem deliveries_settle_consecutive :
    ((idle start).run deliverySystem consecutive).state.db.DeliveriesMatch := by
  have hforward : ∀ entry ∈ (idle start).history deliverySystem consecutive,
      WritesForward entry.2.1 entry.2.2 := by decide +kernel
  apply (deliveries_settle deliveriesStart_start hforward).2.2
  intro i call p hget hrunning
  have hended : ∀ entry ∈ ((idle start).run deliverySystem consecutive).procs,
      entry.2.result? ≠ none := by decide +kernel
  exact absurd hrunning (hended _ (List.mem_of_getElem? hget))

end DeliveryExample

end Realmroot
