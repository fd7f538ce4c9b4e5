import Realmroot.WebhookDeliveries

/-!
# Programs of deliveries

What a delivery promises the others of its commands, and what it pays before it ends: the request
counts the attempt that was reserved, and says that it was delivered when the attempt was.
-/

namespace Realmroot

open AtomicProgram Program Pool

/-! ## The programs -/

/-- The commands that leave requests and attempts alone. -/
def Command.LeavesDeliveries : Command → Prop
  | .read => True
  | .generateId => True
  | .send _ => True
  | .webhook (.readEndpoint _) => True
  | .webhook (.updateEndpoint ..) => True
  | _ => False

/-- The request has at least what the patch says. -/
def WrittenTo (id : String) (patch : WebhookRequestPatch) (w : World) : Prop :=
  ∀ request ∈ w.db.webhookDeliveryRequests, request.id = id →
    (∀ count ∈ patch.attemptCount, count ≤ request.attemptCount) ∧
      (patch.status = "delivered" → request.status = "delivered")

theorem WrittenTo.moved {id : String} {patch : WebhookRequestPatch} {w t : World}
    (h : WrittenTo id patch w) (hmoves : DeliveryMove w t) : WrittenTo id patch t := by
  intro new hnew hid
  obtain ⟨old, hold, hsame, hcount, hdelivered⟩ := hmoves.requests new hnew
  obtain ⟨hcounts, hstatus⟩ := h old hold (hsame.symm.trans hid)
  exact ⟨fun count hmem => (hcounts count hmem).trans hcount, hdelivered ∘ hstatus⟩

section Rules

variable {α β : Type} {C : Contract Command World Reply} {B : Debts Command World DeliveryDebt}
  {w : World}

theorem pays_perform {command : Command} {statement : Statement α} {next : α → Request β}
    (h : ∀ t, C.rely w t → C.allowed command t →
      match statement t.db with
      | .ok (a, _) =>
        (∀ d, B.incurs command t d →
          (next a).Meets C (fun _ u => ¬ B.outstanding u d) (exec command t)) ∧
            (next a).Pays C B (exec command t)
      | .error _ => ∀ d, ¬ B.incurs command t d) :
    ((perform command statement).bind next).Pays C B w := by
  intro t hst hallowed
  have hnext := h t hst hallowed
  change (∀ d, B.incurs command t d → (Program.bind (match statement t.db with
    | .ok (a, _) => .pure a
    | .error e => .throw e) next).Meets C (fun _ u => ¬ B.outstanding u d) (exec command t)) ∧
      (Program.bind (match statement t.db with
    | .ok (a, _) => .pure a
    | .error e => .throw e) next).Pays C B (exec command t)
  cases hs : statement t.db with
  | ok result =>
    rw [hs] at hnext
    exact hnext
  | error e =>
    rw [hs] at hnext
    exact ⟨fun d hd => absurd hd (hnext d), trivial⟩

theorem pays_orThrow {error : Error} {value : Option α} {next : α → Request β}
    (h : ∀ a, value = some a → (next a).Pays C B w) :
    (orThrow error value >>= next).Pays C B w := by
  cases value with
  | none => trivial
  | some a => exact h a rfl

end Rules

section Programs

variable [Platform] {call : DeliveryCall} {w : World}

omit [Platform] in
theorem keeps_leaves {command : Command} (hcommand : command.LeavesDeliveries) :
    (exec command w).db.webhookDeliveryAttempts = w.db.webhookDeliveryAttempts ∧
      (exec command w).db.webhookDeliveryRequests = w.db.webhookDeliveryRequests := by
  cases command with
  | read => exact ⟨rfl, rfl⟩
  | generateId => exact ⟨rfl, rfl⟩
  | send request => exact ⟨rfl, rfl⟩
  | webhook command =>
    cases command with
    | readEndpoint id => exact ⟨rfl, rfl⟩
    | updateEndpoint id patch => exact ⟨rfl, rfl⟩
    | _ => exact hcommand.elim
  | _ => exact hcommand.elim

omit [Platform] in
theorem quiet_leavesDeliveries :
    Quiet (deliveryPromises.contract call) Command.LeavesDeliveries where
  refl := DeliveryMove.refl
  trans := DeliveryMove.trans
  guarantee c hc s _ := by
    cases c with
    | read => trivial
    | generateId => trivial
    | send request => trivial
    | webhook command =>
      cases command with
      | readEndpoint id => trivial
      | updateEndpoint id patch => trivial
      | _ => exact hc.elim
    | _ => exact hc.elim
  moves c hc s _ := by
    obtain ⟨hattempts, hrequests⟩ := keeps_leaves (w := s) hc
    exact .of_same hattempts hrequests

omit [Platform] in
/-- What a promised statement on webhooks does where it is considered. -/
theorem moves_webhook {command : WebhookCommand}
    (hallowed : (deliveryPromises.contract call).allowed (.webhook command) w)
    (hpromise : command.KeepsCount w) : DeliveryMove w (exec (Command.webhook command) w) :=
  (keeps_webhook hallowed.1 hallowed.2.1 hallowed.2.2 hpromise).2

section Outcome

variable {P : Command → Prop} (hread : P .read) (hsend : ∀ request, P (.send request))
  (hupdate : ∀ id patch, P (.webhook (.updateEndpoint id patch)))

include hread hupdate in
theorem readSigningSecret_uses (endpoint : WebhookEndpoint) :
    (readSigningSecret endpoint).Uses P := by
  unfold readSigningSecret
  split_ifs
  · exact uses_orThrow
  · apply uses_bind uses_sealSecret
    intro sealed
    apply uses_bind (uses_currentTime.mpr hread)
    intro now
    apply uses_bind (uses_perform.mpr (hupdate _ _))
    intro migrated
    exact uses_bind uses_orThrow fun _ => trivial

include hread hsend hupdate in
/-- The outcome of an attempt reads, sends and may migrate the secret of the endpoint. -/
theorem outcome_uses (endpoint : WebhookEndpoint) (event : String) (body : Json)
    (attemptedAt : Time) :
    ((attemptDelivery endpoint event body attemptedAt).tryCatch fun error =>
      .pure (failedOutcome error)).Uses P := by
  refine Uses.tryCatch ?_ fun error => trivial
  apply uses_bind (readSigningSecret_uses hread hupdate endpoint)
  intro signingSecret
  apply uses_bind uses_ofResult
  intro eventId
  apply uses_bind (uses_fetchPeer.mpr (hsend _))
  intro reply
  apply uses_bind (uses_bind uses_randomString fun _ => uses_orThrow)
  intro response
  apply uses_bind (uses_bind uses_randomString fun _ => uses_orThrow)
  intro bytes
  trivial

end Outcome

theorem outcome_leaves (endpoint : WebhookEndpoint) (event : String) (body : Json)
    (attemptedAt : Time) :
    ((attemptDelivery endpoint event body attemptedAt).tryCatch fun error =>
      .pure (failedOutcome error)).Uses Command.LeavesDeliveries :=
  outcome_uses trivial (fun _ => trivial) (fun _ _ => trivial) endpoint event body attemptedAt

/-- An attempt that has an outcome is not pending. -/
theorem attemptDelivery_returns (endpoint : WebhookEndpoint) (event : String) (body : Json)
    (attemptedAt : Time) :
    ((attemptDelivery endpoint event body attemptedAt).tryCatch fun error =>
      .pure (failedOutcome error)).Returns fun outcome => outcome.status ≠ "pending" := by
  apply Returns.tryCatch
  · refine Returns.bind (returns_true _) fun signingSecret _ => ?_
    refine Returns.bind (returns_true _) fun eventId _ => ?_
    refine Returns.bind (returns_true _) fun reply _ => ?_
    refine Returns.bind (returns_true _) fun response _ => ?_
    refine Returns.bind (returns_true _) fun responseBody _ => ?_
    change (answeredOutcome response _).status ≠ "pending"
    unfold answeredOutcome
    split_ifs <;> simp
  · intro error
    change (failedOutcome error).status ≠ "pending"
    simp [failedOutcome]

omit [Platform] in
/-- A request has what was written to it. -/
theorem updateDelivery_meets {id : String} {patch : WebhookRequestPatch}
    (hpromise : ∀ t, DeliveryMove w t → t.db.DeliveriesKept →
      (WebhookCommand.updateRequest id patch).KeepsCount t) :
    (updateDelivery id patch).Meets (deliveryPromises.contract call)
      (fun _ u => DeliveryMove w u ∧ WrittenTo id patch u) w := by
  apply meets_perform
  intro t ht hallowed
  have hkept := hpromise t ht hallowed.1
  refine ⟨hkept, ?_⟩
  have hmoves : DeliveryMove w (exec (Command.webhook (.updateRequest id patch)) t) :=
    ht.trans (moves_webhook hallowed hkept)
  have hwritten : WrittenTo id patch (exec (Command.webhook (.updateRequest id patch)) t) := by
    intro request hrequest hid
    obtain ⟨old, hold, rfl⟩ := Table.mem_updateWhere.mp hrequest
    split_ifs at hid ⊢ with hselected
    · refine ⟨?_, fun hstatus => hstatus⟩
      intro count hcount
      simp [WebhookRequestPatch.apply, Option.mem_def.mp hcount]
    · exact absurd (by simpa using hid) hselected
  have hquiet : ∀ {γ : Type} {p : Request γ}, p.Uses Command.LeavesDeliveries →
      p.Meets (deliveryPromises.contract call) (fun _ u => DeliveryMove w u ∧ WrittenTo id patch u)
        (exec (Command.webhook (.updateRequest id patch)) t) := by
    intro γ p hp
    refine (quiet_leavesDeliveries.meets hp _).mono ?_
    intro r u hu
    exact ⟨hmoves.trans hu, hwritten.moved hu⟩
  apply hquiet
  apply uses_bind uses_orThrow
  intro row
  apply uses_bind (uses_query.mpr trivial)
  intro found
  exact uses_bind uses_orThrow fun _ => trivial

omit [Platform] in
/-- The row of an attempt that is reserved. -/
theorem ReservedAs.find {attempt : WebhookDeliveryAttempt} {key : String × String}
    (h : ReservedAs attempt key w) (hkept : w.db.DeliveriesKept) :
    ∃ row, w.db.webhookDeliveryAttempts.find? (fun r => r.id = attempt.id) = some row ∧
      row ∈ w.db.webhookDeliveryAttempts ∧ row.id = attempt.id ∧ row.requestId = key.1 ∧
        row.idempotencyKey = key.2 ∧ row.sequence = attempt.sequence := by
  obtain ⟨row, hrow, hid, hrequest, hkey, hsequence⟩ := h
  cases hfind : w.db.webhookDeliveryAttempts.find? fun r => r.id = attempt.id with
  | none => simpa [hid] using List.find?_eq_none.mp hfind row hrow
  | some found =>
    have hfound : found.id = attempt.id := by simpa using List.find?_some hfind
    obtain rfl := hkept.attempts.eq_of_key (List.mem_of_find?_eq_some hfind) hrow
      (hfound.trans hid.symm)
    exact ⟨found, rfl, hrow, hid, hrequest, hkey, hsequence⟩

omit [Platform] in
/-- What an attempt that was reserved is after it is completed. -/
theorem updateDeliveryAttempt_meets {attempt : WebhookDeliveryAttempt} {key : String × String}
    {patch : WebhookAttemptPatch} (hreserved : ReservedAs attempt key w)
    (hcompletes : patch.status ≠ "pending") :
    (updateDeliveryAttempt attempt.id patch).Meets (deliveryPromises.contract call)
      (fun r u => DeliveryMove w u ∧ (patch.status = "delivered" → u.db.Answered key.1) ∧
        ∀ updated, r = .ok updated → ReservedAs updated key u) w := by
  apply meets_perform
  intro t ht hallowed
  refine ⟨hcompletes, ?_⟩
  have hmoves := moves_webhook hallowed hcompletes
  obtain ⟨row, hfind, hrow, hid, hrequest, hkey, hsequence⟩ := (hreserved.moved ht).find hallowed.1
  have hselected : decide (row.id = attempt.id) = true := by simpa using hid
  have hupdated := Table.mem_updateWhere_of_pos (f := patch.apply)
    (p := fun r => decide (r.id = attempt.id)) hrow hselected
  have hanswer : (WebhookCommand.updateAttempt attempt.id patch).statement t.db =
      .ok (some (patch.apply row), { t.db with
        webhookDeliveryAttempts := Table.updateWhere (fun r => r.id = attempt.id) patch.apply
          t.db.webhookDeliveryAttempts }) := by
    change Database.updateWebhookAttempt attempt.id patch t.db = _
    rw [Database.updateWebhookAttempt, hfind]
    rfl
  rw [hanswer]
  refine ⟨ht.trans hmoves, ?_, ?_⟩
  · intro hdelivered
    exact ⟨patch.apply row, Database.mem_attemptsOf.mpr ⟨hupdated, hrequest⟩, hdelivered⟩
  · intro updated hok
    cases hok
    exact ⟨patch.apply row, hupdated, rfl, hrequest, hkey, rfl⟩

variable {attempt : WebhookDeliveryAttempt} {current : WebhookDeliveryRequest}
  {idempotencyKey : String} {outcome : AttemptOutcome}

omit [Platform] in
/-- What the end of an attempt writes to its request is promised. -/
theorem completed_promised (completedAt : Time)
    (hanswered : outcome.status = "delivered" → w.db.Answered current.id) :
    ∀ t, DeliveryMove w t → t.db.DeliveriesKept →
      (WebhookCommand.updateRequest current.id (completedPatch outcome completedAt)).KeepsCount
        t := by
  intro t ht _
  refine ⟨?_, ?_⟩
  · intro count hcount
    cases hcount
  · intro hdelivered
    obtain ⟨old, hold, hstatus⟩ := hanswered hdelivered
    rw [Database.mem_attemptsOf] at hold
    obtain ⟨new, hnew, -, hrequest, -, -, hsame⟩ := ht.attempts old hold.1
    refine ⟨new, Database.mem_attemptsOf.mpr ⟨hnew, hrequest.trans hold.2⟩, ?_⟩
    rw [hsame (by simp [hstatus]), hstatus]

omit [Platform] in
/-- What the start of an attempt writes to its request is promised. -/
theorem started_promised (attemptedAt : Time)
    (hreserved : ReservedAs attempt (current.id, idempotencyKey) w) :
    ∀ t, DeliveryMove w t → t.db.DeliveriesKept →
      (WebhookCommand.updateRequest current.id (startedPatch attempt.sequence
        attemptedAt)).KeepsCount t := by
  intro t ht hkept
  obtain ⟨row, hrow, -, hrequest, -, hsequence⟩ := hreserved.moved ht
  refine ⟨?_, ?_⟩
  · intro count hcount
    cases hcount
    rw [← hsequence]
    exact Database.sequence_le hkept (Database.mem_attemptsOf.mpr ⟨hrow, hrequest⟩)
  · intro hdelivered
    simp [startedPatch] at hdelivered

omit [Platform] in
/-- The end of a delivery, from where its outcome is known. -/
theorem finishDelivery_meets {completedAt : Time}
    (hreserved : ReservedAs attempt (current.id, idempotencyKey) w)
    (hcompletes : outcome.status ≠ "pending") :
    ((updateDeliveryAttempt attempt.id (completedAttemptPatch outcome completedAt)).bind
      fun updatedAttempt =>
        (updateDelivery current.id (completedPatch outcome completedAt)).bind fun updated =>
          .pure ({ request := toRequestResponse updated, attempt := updatedAttempt
                   created := true } : DeliveryResult)).Meets (deliveryPromises.contract call)
      (fun r u => DeliveryMove w u ∧ ∀ result, r = .ok result →
        ReservedAs result.attempt (current.id, idempotencyKey) u) w := by
  rw [meets_bind]
  refine (updateDeliveryAttempt_meets hreserved hcompletes).mono ?_
  rintro (e | updatedAttempt) t ⟨ht, hanswered, hupdated⟩
  · refine ⟨ht, ?_⟩
    intro result hresult
    cases hresult
  have hdelivered : outcome.status = "delivered" → t.db.Answered current.id := hanswered
  rw [andThen_ok, meets_bind]
  refine (updateDelivery_meets (completed_promised completedAt hdelivered)).mono ?_
  rintro (e | updated) u ⟨hu, -⟩
  · refine ⟨ht.trans hu, ?_⟩
    intro result hresult
    cases hresult
  · refine ⟨ht.trans hu, ?_⟩
    intro result hresult
    cases hresult
    exact (hupdated updatedAttempt rfl).moved hu

omit [Platform] in
theorem leaves_free (command : Command) (h : command.LeavesDeliveries) (s : World)
    (debt : DeliveryDebt) : ¬ deliveryDebts.incurs command s debt := by
  cases command with
  | webhook command =>
    cases command with
    | readEndpoint id => exact fun hincurs => hincurs
    | updateEndpoint id patch => exact fun hincurs => hincurs
    | _ => exact h.elim
  | read => exact fun hincurs => hincurs
  | generateId => exact fun hincurs => hincurs
  | send request => exact fun hincurs => hincurs
  | _ => exact h.elim

omit [Platform] in
/-- The commands of an update of a request incur nothing. -/
theorem updateDelivery_free (id : String) (patch : WebhookRequestPatch) :
    (updateDelivery id patch).Uses fun c => ∀ s d, ¬ deliveryDebts.incurs c s d := by
  apply uses_bind (uses_perform.mpr fun _ _ h => h)
  intro updated
  apply uses_bind uses_orThrow
  intro row
  apply uses_bind (uses_query.mpr fun _ _ h => h)
  intro found
  exact uses_bind uses_orThrow fun _ => trivial

omit [Platform] in
/-- The success of an attempt is written to its request. -/
theorem finishDelivery_pays {completedAt : Time}
    (hreserved : ReservedAs attempt (current.id, idempotencyKey) w) :
    ((updateDeliveryAttempt attempt.id (completedAttemptPatch outcome completedAt)).bind
      fun updatedAttempt =>
        (updateDelivery current.id (completedPatch outcome completedAt)).bind fun updated =>
          .pure ({ request := toRequestResponse updated, attempt := updatedAttempt
                   created := true } : DeliveryResult)).Pays (deliveryPromises.contract call)
      deliveryDebts w := by
  unfold updateDeliveryAttempt
  rw [Program.bind_eq, bind_assoc]
  apply pays_perform
  intro t ht hallowed
  have hreserved' := hreserved.moved ht
  obtain ⟨row, hfind, hrow, hid, hrequest, -⟩ := hreserved'.find hallowed.1
  have hanswer : ∃ db, (WebhookCommand.updateAttempt attempt.id
      (completedAttemptPatch outcome completedAt)).statement t.db =
        .ok (some ((completedAttemptPatch outcome completedAt).apply row), db) := by
    change ∃ db, Database.updateWebhookAttempt attempt.id _ t.db = _
    rw [Database.updateWebhookAttempt, hfind]
    exact ⟨_, rfl⟩
  obtain ⟨db, hanswer⟩ := hanswer
  rw [hanswer]
  constructor
  · intro debt hdebt
    cases debt with
    | count id sequence => exact hdebt.elim
    | success id =>
      obtain ⟨hdelivered, row', hrow', hid'⟩ := hdebt
      rw [Database.mem_attemptsOf] at hrow'
      have hsame := hallowed.1.attempts.eq_of_key hrow'.1 hrow (hid'.trans hid.symm)
      have hcurrent : current.id = id := by rw [← hrow'.2, hsame, hrequest]
      subst hcurrent
      have hexec : (exec (Command.webhook (.updateAttempt attempt.id
          (completedAttemptPatch outcome completedAt))) t).db = db :=
        Statement.after_of_ok hanswer
      have hanswered : outcome.status = "delivered" →
          (exec (Command.webhook (.updateAttempt attempt.id
            (completedAttemptPatch outcome completedAt))) t).db.Answered current.id := by
        intro hstatus
        refine ⟨(completedAttemptPatch outcome completedAt).apply row, ?_, hstatus⟩
        refine Database.mem_attemptsOf.mpr ⟨?_, hrequest⟩
        rw [hexec, (Database.updateWebhookAttempt_rows hanswer).1]
        exact Table.mem_updateWhere_of_pos hrow (by simpa using hid)
      have hmeets : ∀ updatedAttempt : WebhookDeliveryAttempt,
          ((updateDelivery current.id (completedPatch outcome completedAt)).bind fun updated =>
            .pure ({ request := toRequestResponse updated, attempt := updatedAttempt
                     created := true } : DeliveryResult)).Meets (deliveryPromises.contract call)
            (fun _ u => ¬ deliveryDebts.outstanding u (.success current.id))
            (exec (Command.webhook (.updateAttempt attempt.id
              (completedAttemptPatch outcome completedAt))) t) := by
        intro updatedAttempt
        rw [meets_bind]
        refine (updateDelivery_meets (completed_promised completedAt hanswered)).mono ?_
        rintro (e | updated) u ⟨-, hwritten⟩
        · rintro ⟨-, request, hrequest, hid, hother⟩
          exact hother ((hwritten request hrequest hid).2 hdelivered)
        · rintro ⟨-, request, hrequest, hid, hother⟩
          exact hother ((hwritten request hrequest hid).2 hdelivered)
      exact hmeets _
  · refine Uses.pays (uses_bind uses_orThrow ?_) _
    intro updatedAttempt
    exact uses_bind (updateDelivery_free ..) fun updated => trivial

/-- A delivery from where its attempt is reserved: the request counts the attempt. -/
theorem deliverAttempt_meets (endpoint : WebhookEndpoint) (body : Json) (attemptedAt : Time)
    (hreserved : ReservedAs attempt (current.id, idempotencyKey) w) :
    (deliverAttempt endpoint current body attempt attemptedAt).Meets
      (deliveryPromises.contract call)
      (fun r u => WrittenTo current.id (startedPatch attempt.sequence attemptedAt) u ∧
        ∀ result, r = .ok result → ReservedAs result.attempt (current.id, idempotencyKey) u) w := by
  unfold deliverAttempt
  rw [Program.bind_eq, meets_bind]
  refine (updateDelivery_meets (started_promised attemptedAt hreserved)).mono ?_
  rintro (e | row) t ⟨ht, hwritten⟩
  · refine ⟨hwritten, ?_⟩
    intro result hresult
    cases hresult
  have hleaves := outcome_leaves endpoint current.event body attemptedAt
  apply quiet_leavesDeliveries.meets_bind_returns hleaves (attemptDelivery_returns ..)
  · intro outcome u hcompletes hu
    apply quiet_leavesDeliveries.meets_bind (uses_currentTime.mpr trivial)
    · intro completedAt v hv
      have hlater := hu.trans hv
      refine (finishDelivery_meets (hreserved.moved (ht.trans hlater)) hcompletes).mono ?_
      rintro r x ⟨hx, hresult⟩
      exact ⟨hwritten.moved (hlater.trans hx), hresult⟩
    · intro e v hv
      refine ⟨hwritten.moved (hu.trans hv), ?_⟩
      intro result hresult
      cases hresult
  · intro e u hu
    refine ⟨hwritten.moved hu, ?_⟩
    intro result hresult
    cases hresult

/-- A delivery pays what it incurs after its attempt is reserved. -/
theorem deliverAttempt_pays (endpoint : WebhookEndpoint) (body : Json) (attemptedAt : Time)
    (hreserved : ReservedAs attempt (current.id, idempotencyKey) w) :
    (deliverAttempt endpoint current body attempt attemptedAt).Pays
      (deliveryPromises.contract call) deliveryDebts w := by
  unfold deliverAttempt
  refine Meets.pays_bind ?_ (updateDelivery_free _ _)
  refine (updateDelivery_meets (started_promised attemptedAt hreserved)).mono ?_
  rintro r t ⟨ht, -⟩ row -
  have hleaves := outcome_leaves endpoint current.event body attemptedAt
  apply quiet_leavesDeliveries.pays_bind leaves_free hleaves
  intro outcome u hu
  apply quiet_leavesDeliveries.pays_bind leaves_free (uses_currentTime.mpr trivial)
  intro completedAt v hv
  exact finishDelivery_pays (hreserved.moved (ht.trans (hu.trans hv)))

omit [Platform] in
/-- A batch that reserves leaves an attempt under the key of its row, and so does one that does
not, where the key is taken. -/
theorem reservedAs_of_ok {previousAttemptCount : ℕ} {row created : WebhookDeliveryAttempt}
    {db : Database}
    (h : Database.insertWebhookAttempt previousAttemptCount row w.db = .ok (some created, db)) :
    created.id = row.id ∧ created.requestId = row.requestId ∧
      ReservedAs created (row.requestId, row.idempotencyKey)
        (exec (Command.webhook (.reserveAttempt previousAttemptCount row)) w) := by
  have hstatement : (WebhookCommand.reserveAttempt previousAttemptCount row).statement w.db =
      .ok (some created, db) := h
  have hexec : (exec (Command.webhook (.reserveAttempt previousAttemptCount row)) w).db = db :=
    Statement.after_of_ok hstatement
  rcases Database.insertWebhookAttempt_cases h with ⟨hnone, -⟩ | ⟨hsome, -, hafter⟩
  · cases hnone
  rw [Option.some.injEq] at hsome
  have hattempts := congrArg Database.webhookDeliveryAttempts (hexec.trans hafter)
  dsimp only at hattempts
  refine ⟨by rw [hsome], by rw [hsome], created, ?_, rfl, by rw [hsome], by rw [hsome], rfl⟩
  rw [hattempts, hsome]
  exact List.mem_append_right _ (List.mem_singleton.mpr rfl)

omit [Platform] in
/-- The attempt that is found under a key. -/
theorem reservedAs_of_find {requestId idempotencyKey : String}
    (h : w.db.findAttemptByIdempotencyKey requestId idempotencyKey = some attempt) :
    ReservedAs attempt (requestId, idempotencyKey) w := by
  have hkey : attempt.requestId = requestId ∧ attempt.idempotencyKey = idempotencyKey := by
    simpa using List.find?_some h
  exact ⟨attempt, List.mem_of_find?_eq_some h, rfl, hkey.1, hkey.2, rfl⟩

omit [Platform] in
/-- What is promised of a reservation, and what it establishes. -/
theorem reserveAttempt_meets {previousAttemptCount : ℕ} {row : WebhookDeliveryAttempt}
    (hpending : row.status = "pending")
    (hprevious : previousAttemptCount ≤ (w.db.attemptsOf row.requestId).length) :
    (reserveAttempt previousAttemptCount row).Meets (deliveryPromises.contract call)
      (fun r u => DeliveryMove w u ∧ ∀ reservation, r = .ok reservation →
        ReservedAs reservation.1 (row.requestId, row.idempotencyKey) u) w := by
  unfold reserveAttempt
  apply meets_perform
  intro t ht hallowed
  have hpromise : (WebhookCommand.reserveAttempt previousAttemptCount row).KeepsCount t :=
    ⟨hpending, hprevious.trans (ht.counts row.requestId)⟩
  refine ⟨hpromise, ?_⟩
  have hmoves := ht.trans (moves_webhook hallowed hpromise)
  cases hstatement : (WebhookCommand.reserveAttempt previousAttemptCount row).statement t.db with
  | error e =>
    refine ⟨hmoves, ?_⟩
    intro reservation hresult
    cases hresult
  | ok result =>
    obtain ⟨created, db⟩ := result
    cases created with
    | some created =>
      refine ⟨hmoves, ?_⟩
      intro reservation hresult
      cases hresult
      exact (reservedAs_of_ok hstatement).2.2
    | none =>
      dsimp only
      apply meets_query
      intro u hu _
      refine ⟨trivial, ?_⟩
      apply meets_orThrow
      · intro _
        refine ⟨hmoves.trans hu, ?_⟩
        intro reservation hresult
        cases hresult
      · intro existing hfind
        refine ⟨hmoves.trans hu, ?_⟩
        intro reservation hresult
        cases hresult
        exact reservedAs_of_find hfind

omit [Platform] in
/-- What a reservation incurs is left to what follows it. -/
theorem reserve_pays {previousAttemptCount : ℕ} {row : WebhookDeliveryAttempt}
    {next : WebhookDeliveryAttempt × Bool → Request DeliveryResult}
    (hnew : ∀ created t, ReservedAs created (row.requestId, row.idempotencyKey) t →
      (next (created, true)).Meets (deliveryPromises.contract call)
        (fun _ u => ¬ deliveryDebts.outstanding u (.count row.requestId created.sequence)) t ∧
        (next (created, true)).Pays (deliveryPromises.contract call) deliveryDebts t)
    (hold : ∀ existing t, (next (existing, false)).Pays (deliveryPromises.contract call)
      deliveryDebts t) :
    ((reserveAttempt previousAttemptCount row).bind next).Pays (deliveryPromises.contract call)
      deliveryDebts w := by
  unfold reserveAttempt
  rw [Program.bind_eq, bind_assoc]
  apply pays_perform
  intro t ht hallowed
  cases hstatement : (WebhookCommand.reserveAttempt previousAttemptCount row).statement t.db with
  | error e =>
    rintro (⟨id, sequence⟩ | id) hincurs
    · obtain ⟨created, db, hok, -⟩ := hincurs
      rw [show Database.insertWebhookAttempt previousAttemptCount row t.db = .error e from
        hstatement] at hok
      cases hok
    · exact hincurs.elim
  | ok result =>
    obtain ⟨created, db⟩ := result
    cases created with
    | some created =>
      obtain ⟨-, hrequest, hreserved⟩ := reservedAs_of_ok hstatement
      obtain ⟨hmeets, hpays⟩ := hnew created _ hreserved
      refine ⟨?_, hpays⟩
      rintro (⟨id, sequence⟩ | id) hincurs
      · obtain ⟨created', db', hok, hid, hsequence⟩ := hincurs
        have hsame := hok.symm.trans hstatement
        simp only [Except.ok.injEq, Prod.mk.injEq, Option.some.injEq] at hsame
        obtain ⟨rfl, -⟩ := hsame
        rw [← hid, ← hsequence, hrequest]
        exact hmeets
      · exact hincurs.elim
    | none =>
      dsimp only
      constructor
      · rintro (⟨id, sequence⟩ | id) hincurs
        · obtain ⟨created, db', hok, -⟩ := hincurs
          have hsame := hok.symm.trans hstatement
          simp at hsame
        · exact hincurs.elim
      · rw [Program.bind_eq, bind_assoc]
        refine quiet_leavesDeliveries.pays_bind leaves_free
          (uses_query.mpr (by trivial : Command.LeavesDeliveries .read)) ?_
        intro found u _
        rw [Program.bind_eq, bind_assoc]
        refine quiet_leavesDeliveries.pays_bind leaves_free uses_orThrow ?_
        intro existing v _
        exact hold existing v

omit [Platform] in
/-- The request that a delivery finds. -/
theorem findWebhookRequest_spec {id : String} {found : WebhookDeliveryRequest × WebhookEndpoint}
    (h : w.db.findWebhookRequest id = some found) :
    found.1 ∈ w.db.webhookDeliveryRequests ∧ found.1.id = id := by
  obtain ⟨request, hfind, hendpoint⟩ := Option.bind_eq_some_iff.mp h
  obtain ⟨endpoint, -, rfl⟩ := Option.map_eq_some_iff.mp hendpoint
  exact ⟨List.mem_of_find?_eq_some hfind, by simpa using List.find?_some hfind⟩

omit [Platform] in
theorem readEndpoint_leaves {α : Type} (id : String) (select : Database → α) :
    (queryAs (.webhook (.readEndpoint id)) select).Uses Command.LeavesDeliveries :=
  ⟨trivial, fun _ => trivial⟩

/-- A delivery answers an attempt that is reserved under its key. -/
theorem deliverWebhookRequestWithAttempt_meets (id idempotencyKey : String) :
    (deliverWebhookRequestWithAttempt id idempotencyKey).Meets (deliveryPromises.contract call)
      (fun r u => ∀ result, r = .ok result →
        ReservedAs result.attempt (id, idempotencyKey) u) w := by
  have hfailed : ∀ (e : Error) (u : World), ∀ result : DeliveryResult,
      (Except.error e : Except Error DeliveryResult) = .ok result →
        ReservedAs result.attempt (id, idempotencyKey) u := by
    intro e u result hresult
    cases hresult
  unfold deliverWebhookRequestWithAttempt
  apply meets_query
  intro s _ hallowed
  refine ⟨trivial, ?_⟩
  apply meets_orThrow fun _ => hfailed _ s
  intro current hcurrent
  obtain ⟨hmem, hid⟩ := findWebhookRequest_spec hcurrent
  have hcount : current.1.attemptCount ≤ (s.db.attemptsOf id).length :=
    hid ▸ hallowed.1.counted current.1 hmem
  apply quiet_leavesDeliveries.meets_bind (readEndpoint_leaves ..)
  · intro foundEndpoint t₁ h₁
    apply meets_orThrow fun _ => hfailed _ t₁
    intro endpoint _
    apply meets_orThrow fun _ => hfailed _ t₁
    intro body _
    apply quiet_leavesDeliveries.meets_bind (uses_currentTime.mpr trivial)
    · intro attemptedAt t₂ h₂
      apply quiet_leavesDeliveries.meets_bind (uses_generateId.mpr trivial)
      · intro attemptId t₃ h₃
        have hlater := h₁.trans (h₂.trans h₃)
        rw [Program.bind_eq, meets_bind]
        refine (reserveAttempt_meets rfl (hcount.trans (hlater.counts id))).mono ?_
        rintro (e | reservation) t₄ ⟨-, hreserved⟩
        · exact hfailed e t₄
        have hattempt : ReservedAs reservation.1 (id, idempotencyKey) t₄ :=
          hreserved reservation rfl
        rw [andThen_ok]
        split_ifs
        · have hcurrentId : (id, idempotencyKey) = (current.1.id, idempotencyKey) := by rw [hid]
          rw [hcurrentId] at hattempt ⊢
          refine (deliverAttempt_meets endpoint body attemptedAt hattempt).mono ?_
          exact fun r u hu => hu.2
        · intro result hresult
          cases hresult
          exact hattempt
      · exact fun e u _ => hfailed e u
    · exact fun e u _ => hfailed e u
  · exact fun e u _ => hfailed e u

/-- A delivery pays what it incurs. -/
theorem deliverWebhookRequestWithAttempt_pays (id idempotencyKey : String) :
    (deliverWebhookRequestWithAttempt id idempotencyKey).Pays (deliveryPromises.contract call)
      deliveryDebts w := by
  unfold deliverWebhookRequestWithAttempt
  refine Meets.pays_bind ?_ (uses_query.mpr fun _ _ h => h)
  intro s _ _
  refine ⟨trivial, ?_⟩
  intro found hfound
  cases hfound
  apply pays_orThrow
  intro current hcurrent
  obtain ⟨-, hid⟩ := findWebhookRequest_spec hcurrent
  refine quiet_leavesDeliveries.pays_bind leaves_free (readEndpoint_leaves ..) ?_
  intro foundEndpoint t₁ _
  refine quiet_leavesDeliveries.pays_bind leaves_free uses_orThrow ?_
  intro endpoint t₂ _
  refine quiet_leavesDeliveries.pays_bind leaves_free uses_orThrow ?_
  intro body t₃ _
  refine quiet_leavesDeliveries.pays_bind leaves_free (uses_currentTime.mpr (by trivial)) ?_
  intro attemptedAt t₄ _
  refine quiet_leavesDeliveries.pays_bind leaves_free (uses_generateId.mpr (by trivial)) ?_
  intro attemptId t₅ _
  apply reserve_pays
  · intro created t hcreated
    have hreserved : ReservedAs created (current.1.id, idempotencyKey) t := hid ▸ hcreated
    refine ⟨?_, deliverAttempt_pays endpoint body attemptedAt hreserved⟩
    refine (deliverAttempt_meets endpoint body attemptedAt hreserved).mono ?_
    rintro r u ⟨hwritten, -⟩ ⟨-, request, hrequest, hsame, hless⟩
    have hcounted := (hwritten request hrequest (hsame.trans hid.symm)).1 _ rfl
    omega
  · exact fun existing t => trivial

theorem createWebhookDeliveryAttempt_meets (id idempotencyKey : String) :
    (createWebhookDeliveryAttempt id idempotencyKey).Meets (deliveryPromises.contract call)
      (fun r u => ∀ result, r = .ok result → ReservedAs result.1 (id, idempotencyKey) u) w := by
  have hfailed : ∀ (e : Error) (u : World), ∀ result : WebhookDeliveryAttempt × Bool,
      (Except.error e : Except Error (WebhookDeliveryAttempt × Bool)) = .ok result →
        ReservedAs result.1 (id, idempotencyKey) u := by
    intro e u result hresult
    cases hresult
  unfold createWebhookDeliveryAttempt
  apply meets_query
  intro s _ _
  refine ⟨trivial, ?_⟩
  apply meets_orThrow fun _ => hfailed _ s
  intro current _
  apply meets_query
  intro t _ _
  refine ⟨trivial, ?_⟩
  cases hexisting : t.db.findAttemptByIdempotencyKey id idempotencyKey with
  | some attempt =>
    intro result hresult
    cases hresult
    exact reservedAs_of_find hexisting
  | none =>
    apply meets_throwIf fun _ => hfailed _ _
    intro _
    rw [Program.bind_eq, meets_bind]
    refine (deliverWebhookRequestWithAttempt_meets id idempotencyKey).mono ?_
    rintro (e | delivered) u hdelivered
    · exact hfailed e u
    · intro result hresult
      cases hresult
      exact hdelivered delivered rfl

theorem createWebhookDeliveryAttempt_pays (id idempotencyKey : String) :
    (createWebhookDeliveryAttempt id idempotencyKey).Pays (deliveryPromises.contract call)
      deliveryDebts w := by
  unfold createWebhookDeliveryAttempt
  refine quiet_leavesDeliveries.pays_bind leaves_free (uses_query.mpr (by trivial)) ?_
  intro found s _
  refine quiet_leavesDeliveries.pays_bind leaves_free uses_orThrow ?_
  intro current t _
  refine quiet_leavesDeliveries.pays_bind leaves_free (uses_query.mpr (by trivial)) ?_
  intro existing u _
  cases existing with
  | some attempt => trivial
  | none =>
    refine quiet_leavesDeliveries.pays_bind leaves_free uses_throwIf ?_
    intro _ v _
    have hpays : (deliverWebhookRequestWithAttempt id idempotencyKey).Pays
        (deliveryPromises.contract call) deliveryDebts v :=
      deliverWebhookRequestWithAttempt_pays id idempotencyKey
    exact hpays.map _

/-- Every call answers an attempt that is reserved under its key. -/
theorem call_meets :
    call.program.Meets (deliveryPromises.contract call) (deliveryPromises.post call) w := by
  cases call with
  | deliver id idempotencyKey =>
    unfold DeliveryCall.program
    rw [meets_bind]
    refine (deliverWebhookRequestWithAttempt_meets id idempotencyKey).mono ?_
    rintro (e | result) u hresult
    · trivial
    · exact hresult result rfl
  | create id idempotencyKey =>
    unfold DeliveryCall.program
    rw [meets_bind]
    refine (createWebhookDeliveryAttempt_meets id idempotencyKey).mono ?_
    rintro (e | result) u hresult
    · trivial
    · exact hresult result rfl

/-- Every call pays what it incurs. -/
theorem call_pays :
    call.program.Pays (deliveryPromises.contract call) deliveryDebts w := by
  cases call with
  | deliver id idempotencyKey =>
    have hpays : (deliverWebhookRequestWithAttempt id idempotencyKey).Pays
        (deliveryPromises.contract (.deliver id idempotencyKey)) deliveryDebts w :=
      deliverWebhookRequestWithAttempt_pays id idempotencyKey
    exact hpays.map _
  | create id idempotencyKey =>
    have hpays : (createWebhookDeliveryAttempt id idempotencyKey).Pays
        (deliveryPromises.contract (.create id idempotencyKey)) deliveryDebts w :=
      createWebhookDeliveryAttempt_pays id idempotencyKey
    exact hpays.map _

end Programs

end Realmroot
