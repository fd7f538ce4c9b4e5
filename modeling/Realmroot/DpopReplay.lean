import Realmroot.Library.Settlement
import Realmroot.Rules
import Realmroot.Usecases.Dpop

/-!
# Proofs that are presented again

The window in which a proof is accepted is checked at one time, and the proof is recorded at a
later one. Between the two, the record of an earlier presentation may expire and be deleted.
-/

namespace Realmroot

open AtomicProgram Program Pool Dpop

/-! ## The system -/

/-- A proof is presented with a token request, or with a request to a resource. -/
inductive DpopRequest where
  | token (proof tokenEndpoint : String)
  | resource (input : DpopResourceProof)

def DpopRequest.proof : DpopRequest → String
  | token proof _ => proof
  | resource input => input.proof

inductive DpopEvent where
  | elapse (milliseconds : ℕ)
  /-- An agent authenticates: the identifier of its token goes to the same table. -/
  | agentAuth (jtiHash : String) (createdAt expiresAt : Time)
  /-- The other tables change in any way. -/
  | configure (db : Database)

/-- A date that was read before. -/
def DpopEvent.apply : DpopEvent → World → World
  | .elapse milliseconds, w => { w with clock := w.clock + milliseconds }
  | .agentAuth jtiHash createdAt expiresAt, w =>
    commit (Database.insertJti
      { jtiHash := jtiHash, keyThumbprint := "agent-auth", expiresAt := expiresAt
        createdAt := min createdAt w.clock }) w
  | .configure db, w => { w with db := { db with agentDpopJtis := w.db.agentDpopJtis } }

def dpopSystem [Platform] [Jose] :
    System Command World Reply Error Unit DpopRequest DpopEvent where
  program
    | .token proof tokenEndpoint => (validateDpopTokenProof proof tokenEndpoint).discard
    | .resource input => validateDpopResourceProof input
  environment := DpopEvent.apply

abbrev DpopAction := Action Reply DpopRequest DpopEvent

/-! ## Records -/

/-- The commands that record a proof. -/
def Command.recordsProof : Command → Bool
  | .consumeJti _ => true
  | _ => false

/-- A record is accepted unless an unexpired one of the same identifier is there. -/
def Command.acceptsProof : Command → World → Bool
  | .consumeJti row, w => !(Database.insertJti row).refuses w.db
  | _, _ => false

/-- A proof is recorded before its window has ended. -/
def RecordedInTime : Command → World → Prop
  | .consumeJti row, w => w.clock ≤ row.expiresAt
  | _, _ => True

instance (command : Command) (w : World) : Decidable (RecordedInTime command w) := by
  unfold RecordedInTime
  split <;> infer_instance

/-- When a proof that was presented before is recorded once more, its window has not ended. -/
def RepeatsInTime (history : List (DpopRequest × Command × World)) : Prop :=
  history.Pairwise fun earlier later =>
    earlier.2.1.recordsProof = true → earlier.1.proof = later.1.proof →
      RecordedInTime later.2.1 later.2.2

instance (history : List (DpopRequest × Command × World)) : Decidable (RepeatsInTime history) :=
  inferInstanceAs (Decidable (List.Pairwise _ _))

theorem acceptsProof_recordsProof {command : Command} {w : World}
    (h : command.acceptsProof w = true) : command.recordsProof = true := by
  cases command <;> first | rfl | cases h

theorem exists_consumeJti {command : Command} (h : command.recordsProof = true) :
    ∃ row, command = .consumeJti row := by
  cases command with
  | consumeJti row => exact ⟨row, rfl⟩
  | _ => cases h

/-! ## What a presentation records -/

section Presentations

variable [Platform] [Jose]

/-- The record is the one of the proof. -/
def RecordOf (proof : String) (row : AgentDpopJti) : Prop :=
  ∃ verified jti iat, verifyDpopProof proof = .ok verified ∧
    verified.payload.field "jti" = some (.str jti) ∧
      verified.payload.field "iat" = some (.num iat) ∧
        row.jtiHash = Platform.sha256 jti ∧ row.expiresAt = dateOfSeconds (iat + 300)

/-- Two records of a proof have one identifier, and expire at the same time. -/
theorem RecordOf.unique {proof : String} {row row' : AgentDpopJti} (h : RecordOf proof row)
    (h' : RecordOf proof row') : row.jtiHash = row'.jtiHash ∧ row.expiresAt = row'.expiresAt := by
  obtain ⟨verified, jti, iat, hverified, hjti, hiat, hhash, hexpires⟩ := h
  obtain ⟨verified', jti', iat', hverified', hjti', hiat', hhash', hexpires'⟩ := h'
  rw [hverified, Except.ok.injEq] at hverified'
  subst hverified'
  rw [hjti, Option.some.injEq, Json.str.injEq] at hjti'
  rw [hiat, Option.some.injEq, Json.num.injEq] at hiat'
  subst hjti' hiat'
  exact ⟨hhash.trans hhash'.symm, hexpires.trans hexpires'.symm⟩

/-- The promise of a presentation: the clock is not turned back, and what it records is the
record of its proof, dated not later than now. -/
def dpopPromises : Promises Command World Reply Error Unit DpopRequest where
  inv _ := True
  moves s t := s.clock ≤ t.clock
  cond _ _ _ := True
  promise request command w :=
    match command with
    | .read => True
    | .consumeJti row => RecordOf request.proof row ∧ row.createdAt ≤ w.clock
    | _ => False
  post _ _ _ := True

section Programs

variable {request : DpopRequest} {w : World}

theorem consumeJti_meets {row : AgentDpopJti} (hrow : RecordOf request.proof row)
    (hcreated : row.createdAt ≤ w.clock) {post : Except Error Bool → World → Prop}
    (hpost : ∀ r t, post r t) :
    (consumeJti row).Meets (dpopPromises.contract request) post w := by
  unfold consumeJti
  rw [meets_tryCatch, meets_bind]
  apply meets_perform_last
  intro t hwt _
  refine ⟨⟨hrow, hcreated.trans hwt⟩, ?_⟩
  split
  · exact hpost _ _
  · dsimp only [andThen]
    split_ifs <;> exact hpost _ _

theorem consumeProof_meets (request : DpopRequest) {verified : VerifiedProof}
    (keyThumbprint : String)
    (hverified : verifyDpopProof request.proof = .ok verified) :
    (consumeProof verified.payload keyThumbprint).Meets (dpopPromises.contract request)
      (dpopPromises.ends request) w := by
  unfold consumeProof
  split
  · rename_i jti iat hjti hiat
    apply meets_currentTime
    intro t _ _
    refine ⟨trivial, meets_throwIf (fun _ => trivial) fun _ => ?_⟩
    apply meets_currentTime
    intro t' _ _
    refine ⟨trivial, ?_⟩
    rw [Program.bind_eq, meets_bind]
    apply consumeJti_meets
    · exact ⟨verified, jti, iat, hverified, hjti, hiat, rfl, rfl⟩
    · exact le_rfl
    · rintro (e | consumed) u
      · trivial
      · dsimp only [andThen]
        unfold throwIf
        split_ifs <;> trivial
  · trivial
  · trivial

theorem validateDpopTokenProof_meets (proof tokenEndpoint : String) :
    (validateDpopTokenProof proof tokenEndpoint).discard.Meets
      (dpopPromises.contract (.token proof tokenEndpoint))
      (dpopPromises.ends (.token proof tokenEndpoint)) w := by
  unfold Program.discard validateDpopTokenProof
  rw [meets_bind]
  apply meets_ofResult (fun _ _ => trivial)
  intro verified hverified
  apply meets_orThrow (fun _ => trivial)
  intro target _
  apply meets_throwIf (fun _ => trivial)
  intro _
  rw [meets_bind]
  have hconsume := consumeProof_meets (.token proof tokenEndpoint) (w := w)
    (Jose.calculateJwkThumbprint verified.jwk) hverified
  refine hconsume.mono ?_
  rintro (e | u) t _ <;> trivial

theorem validateDpopResourceProof_meets (input : DpopResourceProof) :
    (validateDpopResourceProof input).Meets (dpopPromises.contract (.resource input))
      (dpopPromises.ends (.resource input)) w := by
  unfold validateDpopResourceProof
  apply meets_ofResult (fun _ _ => trivial)
  intro verified hverified
  apply meets_throwIf (fun _ => trivial)
  intro _
  apply meets_orThrow (fun _ => trivial)
  intro target _
  apply meets_throwIf (fun _ => trivial)
  intro _
  apply meets_throwIf (fun _ => trivial)
  intro _
  exact consumeProof_meets (.resource input) _ hverified

end Programs

omit [Platform] [Jose] in
theorem exec_clock_le (command : Command) (w : World) : w.clock ≤ (exec command w).clock :=
  (exec_clock command w).ge

theorem dpopPromises_sound : dpopPromises.Sound dpopSystem where
  refl s := le_rfl
  trans h h' := h.trans h'
  stable _ _ _ _ _ _ := trivial
  program request s _ := by
    cases request with
    | token proof tokenEndpoint => exact validateDpopTokenProof_meets proof tokenEndpoint
    | resource input => exact validateDpopResourceProof_meets input
  exec _ c s _ _ _ := ⟨trivial, exec_clock_le c s⟩
  environment e s _ := by
    refine ⟨trivial, ?_⟩
    cases e with
    | elapse milliseconds => exact Nat.le_add_right _ _
    | agentAuth jtiHash createdAt expiresAt => exact le_rfl
    | configure db => exact le_rfl

/-! ## A presentation records once -/

section Settlement

variable {w : World}

/-- The commands of a presentation that do not record. -/
abbrev Command.reads (command : Command) : Prop := command.recordsProof = false

omit [Jose] in
theorem consumeTimedProof_settles (jti : String) (iat : ℚ) (keyThumbprint : String) :
    (consumeTimedProof jti iat keyThumbprint).Settles Command.recordsProof
      Command.acceptsProof := by
  apply Settles.bind (uses_currentTime.mpr rfl)
  intro now
  apply Settles.bind uses_throwIf
  intro _
  apply Settles.bind (uses_currentTime.mpr rfl)
  intro createdAt
  apply settles_call rfl
  intro s
  dsimp only [Program.bind]
  cases hs : Database.insertJti _ s.db with
  | ok result =>
    refine ⟨.ok (), rfl, ?_⟩
    simp [Command.acceptsProof, Statement.not_refuses_of_ok hs, Except.isOk, Except.toBool]
  | error e =>
    have herror := Database.insertJti_error hs
    subst herror
    refine ⟨.error (Error.badRequest "DPoP proof was already used."), rfl, ?_⟩
    simp [Command.acceptsProof, Statement.refuses_of_error hs, Except.isOk, Except.toBool]

omit [Jose] in
theorem consumeProof_settles (payload : Record) (keyThumbprint : String) :
    (consumeProof payload keyThumbprint).Settles Command.recordsProof Command.acceptsProof := by
  unfold consumeProof
  split
  · exact consumeTimedProof_settles _ _ _
  · trivial
  · trivial

theorem dpopSystem_settles (request : DpopRequest) :
    (dpopSystem.program request).Settles Command.recordsProof Command.acceptsProof := by
  cases request with
  | token proof tokenEndpoint =>
    apply Settles.map (f := fun _ => ())
    apply Settles.bind uses_ofResult
    intro verified
    apply Settles.bind uses_orThrow
    intro target
    apply Settles.bind uses_throwIf
    intro _
    exact (consumeProof_settles _ _).map _
  | resource input =>
    apply Settles.bind uses_ofResult
    intro verified
    apply Settles.bind uses_throwIf
    intro _
    apply Settles.bind uses_orThrow
    intro target
    apply Settles.bind uses_throwIf
    intro _
    apply Settles.bind uses_throwIf
    intro _
    exact consumeProof_settles _ _

end Settlement

end Presentations

/-! ## Records that stand -/

/-- While the record has not expired, it stands against another one. -/
def Stands (row : AgentDpopJti) (w : World) : Prop :=
  w.clock ≤ row.expiresAt →
    ∃ old ∈ w.db.agentDpopJtis, old.jtiHash = row.jtiHash ∧ old.expiresAt = row.expiresAt

theorem Stands.moved {row : AgentDpopJti} {w t : World} (h : Stands row w)
    (hclock : w.clock ≤ t.clock) (hjtis : t.db.agentDpopJtis = w.db.agentDpopJtis) :
    Stands row t := by
  intro hlive
  rw [hjtis]
  exact h (hclock.trans hlive)

/-- A batch that is dated not later than now deletes no record that has not expired. -/
theorem Stands.insertJti {row new : AgentDpopJti} {w : World} (h : Stands row w)
    (hcreated : new.createdAt ≤ w.clock) : Stands row (commit (Database.insertJti new) w) := by
  intro hlive
  obtain ⟨old, hold, hhash, hexpires⟩ := h hlive
  unfold commit
  apply Statement.after_keeps (p := fun db => ∃ old ∈ db.agentDpopJtis,
    old.jtiHash = row.jtiHash ∧ old.expiresAt = row.expiresAt) ⟨old, hold, hhash, hexpires⟩
  intro u db hok
  obtain ⟨-, rfl⟩ := Database.insertJti_ok hok
  refine ⟨old, List.mem_append_left _ (List.mem_filter.mpr ⟨hold, ?_⟩), hhash, hexpires⟩
  have hlater : row.expiresAt ≥ new.createdAt := hcreated.trans hlive
  simpa [hexpires] using hlater

/-- A record that is accepted stands. -/
theorem stands_of_accepts {row : AgentDpopJti} {w : World}
    (h : (Command.consumeJti row).acceptsProof w = true) :
    Stands row (commit (Database.insertJti row) w) := by
  intro _
  cases hs : Database.insertJti row w.db with
  | error e => simp [Command.acceptsProof, Statement.refuses_of_error hs] at h
  | ok result =>
    have hdb := (Database.insertJti_ok hs).2
    refine ⟨row, ?_, rfl, rfl⟩
    rw [commit, Statement.after_of_ok hs, hdb]
    exact List.mem_append_right _ (List.mem_singleton_self row)

/-- A record that stands is not made again. -/
theorem Stands.refuses {row new : AgentDpopJti} {w : World} (h : Stands row w)
    (hcreated : new.createdAt ≤ w.clock) (hlive : w.clock ≤ row.expiresAt)
    (hhash : row.jtiHash = new.jtiHash) :
    (Command.consumeJti new).acceptsProof w = false := by
  obtain ⟨old, hold, hsame, hexpires⟩ := h hlive
  cases hs : Database.insertJti new w.db with
  | error e => simp [Command.acceptsProof, Statement.refuses_of_error hs]
  | ok result =>
    have hexpired := (Database.insertJti_ok hs).1 old hold (hsame.trans hhash)
    rw [hexpires] at hexpired
    exact absurd hexpired (hcreated.trans hlive).not_gt

/-! ## Runs -/

/-- The presentation of the proof that a step records is accepted. -/
def acceptsFor (proof : String) (entry : DpopRequest × Command × World) : Bool :=
  entry.1.proof = proof && entry.2.1.acceptsProof entry.2.2

section Runs

variable [Platform] [Jose]

/-- What the history of a run says of the state: what was accepted stands, and no proof was
accepted twice. -/
structure Consumed (log : List (DpopRequest × Command × World)) (w : World) : Prop where
  recorded : ∀ entry ∈ log, ∀ row, entry.2.1 = .consumeJti row → RecordOf entry.1.proof row
  stands : ∀ entry ∈ log, ∀ row, entry.2.1 = .consumeJti row →
    entry.2.1.acceptsProof entry.2.2 = true → Stands row w
  once : ∀ proof, (log.filter (acceptsFor proof)).length ≤ 1

theorem Consumed.moved {log : List (DpopRequest × Command × World)} {w t : World}
    (h : Consumed log w) (hstands : ∀ row, Stands row w → Stands row t) : Consumed log t where
  recorded := h.recorded
  stands entry hentry row hcommand haccepts :=
    hstands row (h.stands entry hentry row hcommand haccepts)
  once := h.once

/-- A command that records nothing. -/
theorem Consumed.append_read {log : List (DpopRequest × Command × World)} {w t : World}
    (h : Consumed log w) {request : DpopRequest} {command : Command}
    (hcommand : command.recordsProof = false) (hstands : ∀ row, Stands row w → Stands row t) :
    Consumed (log ++ [(request, command, w)]) t where
  recorded entry hentry row hrow := by
    rcases List.mem_append.mp hentry with hold | hnew
    · exact h.recorded entry hold row hrow
    · obtain rfl := List.mem_singleton.mp hnew
      change command = .consumeJti row at hrow
      rw [hrow] at hcommand
      cases hcommand
  stands entry hentry row hrow haccepts := by
    rcases List.mem_append.mp hentry with hold | hnew
    · exact hstands row (h.stands entry hold row hrow haccepts)
    · obtain rfl := List.mem_singleton.mp hnew
      change command = .consumeJti row at hrow
      rw [hrow] at hcommand
      cases hcommand
  once proof := by
    have hrejects : acceptsFor proof (request, command, w) = false := by
      cases haccepts : command.acceptsProof w with
      | false => simp [acceptsFor, haccepts]
      | true =>
        rw [acceptsProof_recordsProof haccepts] at hcommand
        cases hcommand
    rw [List.filter_append, List.filter_singleton, hrejects]
    simpa using h.once proof

/-- A record of a proof that is made in time. -/
theorem Consumed.append_record {log : List (DpopRequest × Command × World)} {w : World}
    (h : Consumed log w) {request : DpopRequest} {row : AgentDpopJti}
    (hrow : RecordOf request.proof row) (hcreated : row.createdAt ≤ w.clock)
    (hintime : ∀ entry ∈ log, entry.2.1.recordsProof = true → entry.1.proof = request.proof →
      w.clock ≤ row.expiresAt) :
    Consumed (log ++ [(request, .consumeJti row, w)]) (commit (Database.insertJti row) w) where
  recorded entry hentry row' hrow' := by
    rcases List.mem_append.mp hentry with hold | hnew
    · exact h.recorded entry hold row' hrow'
    · obtain rfl := List.mem_singleton.mp hnew
      cases hrow'
      exact hrow
  stands entry hentry row' hrow' haccepts := by
    rcases List.mem_append.mp hentry with hold | hnew
    · exact (h.stands entry hold row' hrow' haccepts).insertJti hcreated
    · obtain rfl := List.mem_singleton.mp hnew
      cases hrow'
      exact stands_of_accepts haccepts
  once proof := by
    rw [List.filter_append, List.length_append]
    by_cases hproof : request.proof = proof
    · subst hproof
      by_cases hnone : log.filter (acceptsFor request.proof) = []
      · rw [hnone, List.filter_singleton]
        cases acceptsFor request.proof (request, .consumeJti row, w) <;> simp
      · obtain ⟨entry, hentry⟩ := List.exists_mem_of_ne_nil _ hnone
        obtain ⟨hmem, haccepts⟩ := List.mem_filter.mp hentry
        simp only [acceptsFor, Bool.and_eq_true, decide_eq_true_eq] at haccepts
        obtain ⟨hsame, haccepts⟩ := haccepts
        have hrecords := acceptsProof_recordsProof haccepts
        obtain ⟨old, hold⟩ := exists_consumeJti hrecords
        have hunique := (hsame ▸ h.recorded entry hmem old hold).unique hrow
        have hlive := hintime entry hmem hrecords hsame
        have hrefuses := (h.stands entry hmem old hold haccepts).refuses hcreated
          (hunique.2 ▸ hlive) hunique.1
        have hrejects : acceptsFor request.proof (request, .consumeJti row, w) = false := by
          simp [acceptsFor, hrefuses]
        rw [List.filter_singleton, hrejects]
        simpa using h.once request.proof
    · have hrejects : acceptsFor proof (request, .consumeJti row, w) = false := by
        simp [acceptsFor, hproof]
      rw [List.filter_singleton, hrejects]
      simpa using h.once proof

section Run

variable (w : World) (schedule : List DpopAction)

/-- Records that are repeated in time are accepted once. -/
theorem consumed_run :
    RepeatsInTime ((idle w).history dpopSystem schedule) →
      Consumed ((idle w).history dpopSystem schedule) ((idle w).run dpopSystem schedule).state := by
  apply dpopPromises_sound.recorded (D := dpopPromises) trivial (fun _ _ _ => trivial)
    (fun _ _ => trivial) (I := fun log t => RepeatsInTime log → Consumed log t)
  · intro _
    refine ⟨?_, ?_, fun proof => Nat.zero_le _⟩ <;> intro entry hentry <;> cases hentry
  · intro log request command t _ _ hpromise ih hintime
    obtain ⟨hlog, -, hlast⟩ := List.pairwise_append.mp hintime
    have hold := ih hlog
    cases command with
    | read => exact hold.append_read rfl fun row hrow => hrow
    | consumeJti row =>
      exact hold.append_record hpromise.1 hpromise.2
        fun entry hentry => hlast entry hentry _ (List.mem_singleton_self _)
    | _ => exact hpromise.elim
  · intro log e t _ ih hintime
    apply (ih hintime).moved
    intro row hrow
    cases e with
    | elapse milliseconds => exact hrow.moved (Nat.le_add_right _ _) rfl
    | agentAuth jtiHash createdAt expiresAt => exact hrow.insertJti (min_le_right _ _)
    | configure db => exact hrow.moved le_rfl rfl

/-- The presentations of a proof that succeed. -/
def acceptances (proof : String) : List (DpopRequest × Except Error Unit × World) :=
  ((idle w).endings dpopSystem schedule).filter fun entry =>
    entry.1.proof = proof && entry.2.1.isOk

/-- A proof is accepted at most once, when it is never recorded again after its window. -/
theorem proof_accepted_once
    (hintime : RepeatsInTime ((idle w).history dpopSystem schedule)) (proof : String) :
    (acceptances w schedule proof).length ≤ 1 := by
  have hcount := congrArg (fun entries => (entries.filter fun entry : DpopRequest × World =>
      entry.1.proof = proof).length)
    ((settling_idle w).endings dpopSystem_settles (fun _ _ => acceptsProof_recordsProof) schedule)
  simp only [List.filter_map, List.length_map, List.filter_filter, Function.comp_def] at hcount
  rw [acceptances, hcount]
  exact (consumed_run w schedule hintime).once proof

end Run
end Runs

/-! ## A proof that is accepted twice -/

namespace ReplayExample

def target : String := "https://auth.example/token"

@[reducible] def platform : Platform :=
  { samplePlatform with
    parseUrl := fun _ => some
      { protocol := "https:", username := "", password := "", hostname := "auth.example"
        pathname := "/token", search := "", hash := "" }
    printUrl := fun _ => target }

/-- A proof of the second 1000. -/
@[reducible] def jose : Jose where
  decodeProtectedHeader _ := some [("typ", .str "dpop+jwt"), ("alg", .str "EdDSA"),
    ("jwk", .obj [("kty", .str "OKP"), ("crv", .str "Ed25519")])]
  verifiedPayload _ _ _ := some [("htm", .str "POST"), ("htu", .str target),
    ("jti", .str "jti"), ("iat", .num 1000)]
  calculateJwkThumbprint _ := "thumbprint"

def start : World := { db := {}, clock := 1000000, nextId := 0 }

def present : DpopAction := .start (.token "proof" target)

def advance (i : ℕ) : DpopAction := .advance i {}

/-- The second presentation is checked when the window ends, and recorded when it has ended. -/
def late : List DpopAction :=
  [present, present, advance 0, advance 0, advance 0, .environment (.elapse 300000), advance 1,
    .environment (.elapse 1), advance 1, advance 1]

theorem accepted_twice :
    ¬ (@acceptances platform jose start late "proof").length ≤ 1 := by decide +kernel

/-- The same presentations, recorded while the window lasts. -/
def inTime : List DpopAction :=
  [present, present, advance 0, advance 0, advance 0, .environment (.elapse 300000), advance 1,
    advance 1, advance 1]

theorem accepted_inTime : (@acceptances platform jose start inTime "proof").length ≤ 1 :=
  @proof_accepted_once platform jose start inTime (by decide +kernel) "proof"

end ReplayExample
end Realmroot
