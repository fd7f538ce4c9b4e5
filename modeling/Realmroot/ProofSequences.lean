import Realmroot.DpopReplay

/-!
# Proofs of several keys

The records of all keys and of the assertions of agents are in one table, under the identifier
alone. A proof is refused because of the record that another key made, and that is the only way in
which the proofs of other keys matter.
-/

namespace Realmroot

open AtomicProgram Program Dpop

/-! ## Presentations -/

/-- A proof, checked and recorded at its times, or an assertion with which an agent
authenticates. -/
inductive Presentation where
  | proof (request : DpopRequest) (checkedAt createdAt : Time)
  | assertion (jtiHash : String) (expiresAt createdAt : Time)

namespace Presentation

/-- When it is recorded. -/
def createdAt : Presentation → Time
  | proof _ _ createdAt => createdAt
  | assertion _ _ createdAt => createdAt

end Presentation

/-- The first time is read, and the later ones. -/
def presentedAt (checkedAt createdAt : Time) : Surroundings World Reply where
  elapse n w := { w with clock := if n = 0 then checkedAt else createdAt }
  reply _ := {}

section Presentations

variable [Platform] [Jose]

/-- The record of `consumeAgentAuthJti`. -/
def agentAuthRecord (jtiHash : String) (expiresAt createdAt : Time) : AgentDpopJti :=
  { jtiHash := jtiHash, keyThumbprint := "agent-auth", expiresAt := expiresAt
    createdAt := createdAt }

/-- Whether it is accepted, and what it leaves behind. -/
def Presentation.run (p : Presentation) (w : World) : Bool × World :=
  match p with
  | proof request checkedAt createdAt =>
    let ended := (dpopSystem.program request).execute (presentedAt checkedAt createdAt) 0 w
    (ended.1.isOk, ended.2)
  | assertion jtiHash expiresAt createdAt =>
    let ended := (consumeJti (agentAuthRecord jtiHash expiresAt createdAt)).execute
      (presentedAt createdAt createdAt) 0 w
    (ended.1.toOption = some true, ended.2)

/-- It is a proof of the key with the thumbprint. -/
def Presentation.signedWith (thumbprint : String) : Presentation → Bool
  | proof request _ _ =>
    match verifyDpopProof request.proof with
    | .ok verified => Jose.calculateJwkThumbprint verified.jwk = thumbprint
    | .error _ => false
  | assertion _ _ _ => false

/-- What is observed at each proof of a key, in a run of presentations one after another. -/
def observed {α : Type} (thumbprint : String) (observe : Presentation → World → α) :
    List Presentation → World → List α
  | [], _ => []
  | p :: rest, w =>
    if p.signedWith thumbprint then observe p w :: observed thumbprint observe rest (p.run w).2
    else observed thumbprint observe rest (p.run w).2

/-- Which of the proofs of a key are accepted. -/
def verdicts (thumbprint : String) : List Presentation → World → List Bool :=
  observed thumbprint fun p w => (p.run w).1

/-! ## Records -/

/-- The verified proof of a request, when it is bound to what it is presented with. -/
def DpopRequest.bound : DpopRequest → Option VerifiedProof
  | .token proof tokenEndpoint => do
    let verified ← (verifyDpopProof proof).toOption
    let target ← proofTarget tokenEndpoint
    if verified.payload.field "htm" ≠ some (.str "POST") ∨
      verified.payload.field "htu" ≠ some (.str target) ∨
        isString (verified.payload.field "jti") = false then none
    else some verified
  | .resource input => do
    let verified ← (verifyDpopProof input.proof).toOption
    if Jose.calculateJwkThumbprint verified.jwk ≠ input.confirmationJkt then none
    else
      let target ← proofTarget input.url
      if (verified.payload.field "htm" ≠ some (.str input.method.toUpper) ∨
          verified.payload.field "htu" ≠ some (.str target)) ∨
        verified.payload.field "ath" ≠ some (.str (Platform.sha256 input.accessToken)) then none
      else some verified

/-- What is recorded of a proof that is checked inside its window. -/
def recordOfProof (verified : VerifiedProof) (checkedAt createdAt : Time) :
    Option AgentDpopJti :=
  match verified.payload.field "jti", verified.payload.field "iat" with
  | some (.str jti), some (.num iat) =>
    if 300 < |(checkedAt : ℚ) / 1000 - iat| then none
    else some
      { jtiHash := Platform.sha256 jti
        keyThumbprint := Jose.calculateJwkThumbprint verified.jwk
        expiresAt := dateOfSeconds (iat + 300), createdAt := createdAt }
  | _, _ => none

/-- The record that is attempted, when no check before it refuses the presentation. -/
def Presentation.record : Presentation → Option AgentDpopJti
  | proof request checkedAt createdAt =>
    request.bound.bind fun verified => recordOfProof verified checkedAt createdAt
  | assertion jtiHash expiresAt createdAt => some (agentAuthRecord jtiHash expiresAt createdAt)

/-- An unexpired record that another key, or an agent, made of the same identifier. -/
def Presentation.meetsStranger (thumbprint : String) (p : Presentation) (w : World) : Bool :=
  p.record.any fun row => w.db.agentDpopJtis.any fun old =>
    old.jtiHash = row.jtiHash && old.keyThumbprint ≠ thumbprint &&
      row.createdAt ≤ old.expiresAt

/-- Which of the proofs of a key meet a stranger's record. -/
def strangersMet (thumbprint : String) : List Presentation → World → List Bool :=
  observed thumbprint fun p w => p.meetsStranger thumbprint w

/-! ## What a presentation does -/

section Steps

variable {p : Presentation} {w : World} {row : AgentDpopJti}

omit [Platform] [Jose] in
theorem consumeJti_eq (row : AgentDpopJti) :
    consumeJti row = .call (.consumeJti row) fun w =>
      .pure (!(Database.insertJti row).refuses w.db) := by
  change Program.call _ _ = _
  congr 1
  funext w
  cases hinsert : Database.insertJti row w.db with
  | ok result =>
    dsimp only
    rw [Statement.not_refuses_of_ok hinsert, hinsert]
    rfl
  | error e =>
    obtain rfl := Database.insertJti_error hinsert
    dsimp only
    rw [Statement.refuses_of_error hinsert, hinsert]
    rfl

/-- The end of a presentation that attempts the record, or that a check before it refuses. -/
def EndsAs {α : Type} (record : Option AgentDpopJti) (w : World)
    (ended : Except Error α × World) : Prop :=
  match record with
  | none => ended.1.isOk = false ∧ ended.2.db = w.db
  | some row =>
    ended.1.isOk = !(Database.insertJti row).refuses w.db ∧
      ended.2.db = (Database.insertJti row).after w.db

omit [Platform] [Jose] in
theorem endsAs_bind_pure {α β : Type} {record : Option AgentDpopJti} {q : Request α}
    {around : Surroundings World Reply} {n : ℕ} (h : EndsAs record w (q.execute around n w))
    (f : α → β) : EndsAs record w ((q.bind fun a => .pure (f a)).execute around n w) := by
  rw [execute_bind_pure]
  have hok : ((q.execute around n w).1.map f).isOk = (q.execute around n w).1.isOk := by
    cases (q.execute around n w).1 <;> rfl
  unfold EndsAs at h ⊢
  rw [hok]
  exact h

omit [Platform] [Jose] in
theorem endsAs_error {α : Type} (e : Error) :
    EndsAs none w ((.error e, w) : Except Error α × World) := ⟨rfl, rfl⟩

omit [Jose] in
theorem consumeTimedProof_ends (jti : String) (iat : ℚ) (keyThumbprint : String)
    (checkedAt createdAt : Time) :
    EndsAs
      (if 300 < |(checkedAt : ℚ) / 1000 - iat| then none
      else some
        { jtiHash := Platform.sha256 jti, keyThumbprint := keyThumbprint
          expiresAt := dateOfSeconds (iat + 300), createdAt := createdAt }) w
      ((consumeTimedProof jti iat keyThumbprint).execute
        (presentedAt checkedAt createdAt) 0 w) := by
  unfold consumeTimedProof
  rw [execute_currentTime]
  unfold throwIf
  have hclock : ((presentedAt checkedAt createdAt).elapse 0 w).clock = checkedAt := rfl
  rw [hclock]
  split_ifs with hwindow
  · exact ⟨rfl, rfl⟩
  · rw [Program.bind_eq, pure_bind, execute_currentTime, Program.bind_eq, consumeJti_eq]
    have hlater : ((presentedAt checkedAt createdAt).elapse (0 + 1)
        ((presentedAt checkedAt createdAt).elapse 0 w)).clock = createdAt := rfl
    rw [hlater]
    unfold EndsAs
    dsimp only
    constructor
    · change (Program.execute _ 3 (if (!(Database.insertJti _).refuses w.db) = false then _ else _)
        _).1.isOk = _
      cases (Database.insertJti _).refuses w.db <;> rfl
    · change World.db (Program.execute _ 3
        (if (!(Database.insertJti _).refuses w.db) = false then _ else _) _).2 = _
      cases (Database.insertJti _).refuses w.db <;> rfl

theorem consumeProof_ends (verified : VerifiedProof) (checkedAt createdAt : Time) :
    EndsAs (recordOfProof verified checkedAt createdAt) w
      ((consumeProof verified.payload (Jose.calculateJwkThumbprint verified.jwk)).execute
        (presentedAt checkedAt createdAt) 0 w) := by
  unfold consumeProof recordOfProof
  cases hjti : verified.payload.field "jti" with
  | none => exact endsAs_error _
  | some jti =>
    cases jti with
    | str jti =>
      cases hiat : verified.payload.field "iat" with
      | none => exact endsAs_error _
      | some iat =>
        cases iat with
        | num iat => exact consumeTimedProof_ends jti iat _ checkedAt createdAt
        | _ => exact endsAs_error _
    | _ => exact endsAs_error _

theorem tokenProof_ends (proof tokenEndpoint : String) (checkedAt createdAt : Time) :
    EndsAs (Presentation.proof (.token proof tokenEndpoint) checkedAt createdAt).record w
      ((validateDpopTokenProof proof tokenEndpoint).discard.execute
        (presentedAt checkedAt createdAt) 0 w) := by
  unfold validateDpopTokenProof Program.discard
  simp only [Presentation.record, DpopRequest.bound]
  cases verifyDpopProof proof with
  | error e => exact endsAs_error _
  | ok verified =>
    cases proofTarget tokenEndpoint with
    | none => exact endsAs_error _
    | some target =>
      simp only [Except.toOption, Option.bind_eq_bind, Option.bind_some, throwIf, ofResult, orThrow,
        Program.bind_eq, pure_bind]
      split_ifs
      · exact endsAs_error _
      · exact endsAs_bind_pure (endsAs_bind_pure (consumeProof_ends verified _ _) _) _

theorem resourceProof_ends (input : DpopResourceProof) (checkedAt createdAt : Time) :
    EndsAs (Presentation.proof (.resource input) checkedAt createdAt).record w
      ((validateDpopResourceProof input).execute (presentedAt checkedAt createdAt) 0 w) := by
  unfold validateDpopResourceProof
  simp only [Presentation.record, DpopRequest.bound]
  cases verifyDpopProof input.proof with
  | error e => exact endsAs_error _
  | ok verified =>
    simp only [Except.toOption, Option.bind_eq_bind, Option.bind_some, throwIf, ofResult,
      Program.bind_eq, pure_bind]
    by_cases hkey : Jose.calculateJwkThumbprint verified.jwk ≠ input.confirmationJkt
    · simp only [if_pos hkey]
      exact endsAs_error _
    · simp only [if_neg hkey]
      cases proofTarget input.url with
      | none => exact endsAs_error _
      | some target =>
        simp only [Option.bind_some, pure_bind, orThrow]
        by_cases hbound : verified.payload.field "htm" ≠ some (.str input.method.toUpper) ∨
            verified.payload.field "htu" ≠ some (.str target)
        · rw [if_pos hbound, if_pos (Or.inl hbound)]
          exact endsAs_error _
        · by_cases hath : verified.payload.field "ath" ≠
              some (.str (Platform.sha256 input.accessToken))
          · rw [if_neg hbound, if_pos hath, if_pos (Or.inr hath)]
            exact endsAs_error _
          · rw [if_neg hbound, if_neg hath, if_neg (not_or.mpr ⟨hbound, hath⟩)]
            exact consumeProof_ends verified _ _

/-- What is accepted, and what is left behind, is what the record comes to. -/
theorem run_ends (p : Presentation) (w : World) :
    (p.record = none ∧ (p.run w).1 = false ∧ (p.run w).2.db = w.db) ∨
      ∃ row, p.record = some row ∧ (p.run w).1 = !(Database.insertJti row).refuses w.db ∧
        (p.run w).2.db = (Database.insertJti row).after w.db := by
  have hproof : ∀ {request checkedAt createdAt},
      EndsAs (Presentation.proof request checkedAt createdAt).record w
        ((dpopSystem.program request).execute (presentedAt checkedAt createdAt) 0 w) := by
    intro request checkedAt createdAt
    cases request with
    | token proof tokenEndpoint => exact tokenProof_ends proof tokenEndpoint _ _
    | resource input => exact resourceProof_ends input _ _
  cases p with
  | proof request checkedAt createdAt =>
    have hends := @hproof request checkedAt createdAt
    cases hrecord : (Presentation.proof request checkedAt createdAt).record with
    | none =>
      rw [hrecord] at hends
      exact Or.inl ⟨rfl, hends⟩
    | some row =>
      rw [hrecord] at hends
      exact Or.inr ⟨row, rfl, hends⟩
  | assertion jtiHash expiresAt createdAt =>
    refine Or.inr ⟨agentAuthRecord jtiHash expiresAt createdAt, rfl, ?_⟩
    simp only [Presentation.run, consumeJti_eq]
    constructor
    · change decide (some (!(Database.insertJti _).refuses w.db) = some true) = _
      simp
    · rfl

end Steps

/-! ## Records of one key -/

section Keys

variable {thumbprint : String} {p : Presentation} {row : AgentDpopJti} {w w' : World}

omit [Platform] [Jose] in
theorem ok_of_toOption {α : Type} {result : Except Error α} {a : α}
    (h : result.toOption = some a) : result = .ok a := by
  cases result with
  | error e => cases h
  | ok b => exact congrArg Except.ok (Option.some.inj h)

theorem bound_verified {request : DpopRequest} {verified : VerifiedProof}
    (h : request.bound = some verified) : verifyDpopProof request.proof = .ok verified := by
  cases request with
  | token proof tokenEndpoint =>
    simp only [DpopRequest.bound, Option.bind_eq_bind, Option.bind_eq_some_iff] at h
    obtain ⟨found, hfound, target, -, h⟩ := h
    split_ifs at h
    cases h
    exact ok_of_toOption hfound
  | resource input =>
    simp only [DpopRequest.bound, Option.bind_eq_bind, Option.bind_eq_some_iff] at h
    obtain ⟨found, hfound, h⟩ := h
    split_ifs at h
    simp only [Option.bind_eq_some_iff] at h
    obtain ⟨target, -, h⟩ := h
    split_ifs at h
    cases h
    exact ok_of_toOption hfound

theorem recordOfProof_spec {verified : VerifiedProof} {checkedAt createdAt : Time}
    (h : recordOfProof verified checkedAt createdAt = some row) :
    row.keyThumbprint = Jose.calculateJwkThumbprint verified.jwk ∧
      row.createdAt = createdAt := by
  unfold recordOfProof at h
  split at h
  · split_ifs at h
    cases h
    exact ⟨rfl, rfl⟩
  · cases h

theorem record_createdAt (h : p.record = some row) : row.createdAt = p.createdAt := by
  cases p with
  | proof request checkedAt createdAt =>
    obtain ⟨verified, -, hrow⟩ := Option.bind_eq_some_iff.mp h
    exact (recordOfProof_spec hrow).2
  | assertion jtiHash expiresAt createdAt =>
    cases h
    rfl

/-- The record names the key that signed the proof. -/
theorem signedWith_iff (hkey : thumbprint ≠ "agent-auth") (h : p.record = some row) :
    p.signedWith thumbprint = true ↔ row.keyThumbprint = thumbprint := by
  cases p with
  | proof request checkedAt createdAt =>
    obtain ⟨verified, hbound, hrow⟩ := Option.bind_eq_some_iff.mp h
    rw [Presentation.signedWith, bound_verified hbound, (recordOfProof_spec hrow).1]
    exact decide_eq_true_iff
  | assertion jtiHash expiresAt createdAt =>
    cases h
    simp [Presentation.signedWith, agentAuthRecord, hkey.symm]

omit [Platform] [Jose] in
theorem refuses_insertJti {db : Database} :
    (Database.insertJti row).refuses db = true ↔
      ∃ old ∈ db.agentDpopJtis, old.jtiHash = row.jtiHash ∧ row.createdAt ≤ old.expiresAt := by
  unfold Statement.refuses Database.insertJti
  dsimp only
  split_ifs with hclash
  · obtain ⟨old, hold, hsame⟩ := List.any_eq_true.mp hclash
    obtain ⟨hmem, hlive⟩ := List.mem_filter.mp hold
    simp only [true_iff]
    exact ⟨old, hmem, by simpa using hsame, by simpa using hlive⟩
  · simp only [false_iff]
    rintro ⟨old, hmem, hsame, hlive⟩
    apply hclash
    rw [List.any_eq_true]
    exact ⟨old, List.mem_filter.mpr ⟨hmem, by simpa using hlive⟩, by simpa using hsame⟩

omit [Platform] [Jose] in
theorem insertJti_after_of_refuses {db : Database}
    (h : (Database.insertJti row).refuses db = true) :
    (Database.insertJti row).after db = db := by
  cases hinsert : Database.insertJti row db with
  | ok result =>
    rw [Statement.not_refuses_of_ok hinsert] at h
    cases h
  | error e => exact Statement.after_of_error hinsert

omit [Platform] [Jose] in
theorem insertJti_after_of_not_refuses {db : Database}
    (h : (Database.insertJti row).refuses db = false) :
    (∀ old ∈ db.agentDpopJtis, old.jtiHash = row.jtiHash → old.expiresAt < row.createdAt) ∧
      ((Database.insertJti row).after db).agentDpopJtis =
        (db.agentDpopJtis.filter fun old => !decide (old.expiresAt < row.createdAt)) ++ [row] := by
  cases hinsert : Database.insertJti row db with
  | ok result =>
    obtain ⟨u, db'⟩ := result
    obtain ⟨hfree, rfl⟩ := Database.insertJti_ok hinsert
    rw [Statement.after_of_ok hinsert]
    exact ⟨hfree, rfl⟩
  | error e =>
    rw [Statement.refuses_of_error hinsert] at h
    cases h

omit [Platform] [Jose] in
theorem keyed_insertJti {db : Database} (h : Table.Keyed (·.jtiHash) db.agentDpopJtis) :
    Table.Keyed (·.jtiHash) ((Database.insertJti row).after db).agentDpopJtis := by
  cases hrefuses : (Database.insertJti row).refuses db with
  | true =>
    rw [insertJti_after_of_refuses hrefuses]
    exact h
  | false =>
    obtain ⟨hfree, hrows⟩ := insertJti_after_of_not_refuses hrefuses
    rw [hrows]
    apply Table.Keyed.append_singleton (h.sublist (List.filter_sublist.map _))
    intro old hold hsame
    obtain ⟨hmem, hlive⟩ := List.mem_filter.mp hold
    have hexpired := hfree old hmem hsame
    simp [hexpired] at hlive

/-! ## Two states -/

/-- Two states with the same records of a key, as far as they have not expired by a time. -/
structure SameRecords (thumbprint : String) (since : Time) (w w' : World) : Prop where
  keyed : Table.Keyed (·.jtiHash) w.db.agentDpopJtis
  keyed' : Table.Keyed (·.jtiHash) w'.db.agentDpopJtis
  same : ∀ old : AgentDpopJti, old.keyThumbprint = thumbprint → since ≤ old.expiresAt →
    (old ∈ w.db.agentDpopJtis ↔ old ∈ w'.db.agentDpopJtis)

namespace SameRecords

variable {since : Time}

omit [Platform] [Jose] in
theorem symm (h : SameRecords thumbprint since w w') : SameRecords thumbprint since w' w where
  keyed := h.keyed'
  keyed' := h.keyed
  same old hold hlive := (h.same old hold hlive).symm

theorem keyed_run (h : Table.Keyed (·.jtiHash) w.db.agentDpopJtis) (p : Presentation) :
    Table.Keyed (·.jtiHash) (p.run w).2.db.agentDpopJtis := by
  rcases run_ends p w with ⟨-, -, hdb⟩ | ⟨row, -, -, hdb⟩
  · rw [hdb]
    exact h
  · rw [hdb]
    exact keyed_insertJti h

/-- The records of a key that a presentation leaves: those that have not expired when it is
recorded, and its own. -/
theorem mem_run {old : AgentDpopJti} (hlive : p.createdAt ≤ old.expiresAt) :
    old ∈ (p.run w).2.db.agentDpopJtis ↔
      old ∈ w.db.agentDpopJtis ∨ (p.record = some old ∧ (p.run w).1 = true) := by
  rcases run_ends p w with ⟨hnone, hrefused, hdb⟩ | ⟨row, hrow, hverdict, hdb⟩
  · simp [hnone, hdb]
  · rw [hdb, hverdict, hrow]
    have hcreated := record_createdAt hrow
    cases hrefuses : (Database.insertJti row).refuses w.db with
    | true =>
      rw [insertJti_after_of_refuses hrefuses]
      simp
    | false =>
      rw [(insertJti_after_of_not_refuses hrefuses).2, List.mem_append, List.mem_filter,
        List.mem_singleton]
      have hkeeps : (!decide (old.expiresAt < row.createdAt)) = true := by
        rw [Bool.not_eq_true', decide_eq_false_iff_not, hcreated]
        exact not_lt.mpr hlive
      simp [hkeeps, eq_comm]

omit [Platform] [Jose] in
theorem mono (h : SameRecords thumbprint since w w') {later : Time} (hle : since ≤ later) :
    SameRecords thumbprint later w w' where
  keyed := h.keyed
  keyed' := h.keyed'
  same old hold hlive := h.same old hold (hle.trans hlive)

/-- What is presented by strangers does not touch the records of a key. -/
theorem stranger (h : SameRecords thumbprint since w w') (hkey : thumbprint ≠ "agent-auth")
    (hp : p.signedWith thumbprint = false) (hbefore : p.createdAt ≤ since) :
    SameRecords thumbprint since (p.run w).2 w' where
  keyed := keyed_run h.keyed p
  keyed' := h.keyed'
  same old hold hlive := by
    rw [mem_run (hbefore.trans hlive), ← h.same old hold hlive]
    constructor
    · rintro (hmem | ⟨hrecord, -⟩)
      · exact hmem
      · have hsigned := (signedWith_iff hkey hrecord).mpr hold
        rw [hp] at hsigned
        cases hsigned
    · exact Or.inl

/-- A proof is refused for a record of its own key, or for one of a stranger. -/
theorem run_refused_iff (hrow : p.record = some row) :
    (p.run w).1 = false ↔
      (∃ old ∈ w.db.agentDpopJtis, old.jtiHash = row.jtiHash ∧ row.createdAt ≤ old.expiresAt ∧
        old.keyThumbprint = thumbprint) ∨ p.meetsStranger thumbprint w = true := by
  have hverdict : (p.run w).1 = !(Database.insertJti row).refuses w.db := by
    rcases run_ends p w with ⟨hnone, -, -⟩ | ⟨row', hrow', hverdict, -⟩
    · rw [hnone] at hrow
      cases hrow
    · rw [hrow', Option.some.injEq] at hrow
      rwa [hrow] at hverdict
  rw [hverdict, Bool.not_eq_false', refuses_insertJti]
  simp only [Presentation.meetsStranger, hrow, Option.any_some, List.any_eq_true,
    Bool.and_eq_true, decide_eq_true_eq, ne_eq]
  constructor
  · rintro ⟨old, hold, hsame, hlive⟩
    by_cases hown : old.keyThumbprint = thumbprint
    · exact Or.inl ⟨old, hold, hsame, hlive, hown⟩
    · exact Or.inr ⟨old, hold, ⟨hsame, hown⟩, hlive⟩
  · rintro (⟨old, hold, hsame, hlive, -⟩ | ⟨old, hold, ⟨hsame, -⟩, hlive⟩)
    · exact ⟨old, hold, hsame, hlive⟩
    · exact ⟨old, hold, hsame, hlive⟩

/-- A proof that meets a record of its own key meets none of a stranger. -/
theorem not_meetsStranger (h : Table.Keyed (·.jtiHash) w.db.agentDpopJtis)
    (hrow : p.record = some row) {own : AgentDpopJti} (hown : own ∈ w.db.agentDpopJtis)
    (hsame : own.jtiHash = row.jtiHash) (hkey : own.keyThumbprint = thumbprint) :
    p.meetsStranger thumbprint w = false := by
  rw [Bool.eq_false_iff]
  intro hmeets
  simp only [Presentation.meetsStranger, hrow, Option.any_some, List.any_eq_true,
    Bool.and_eq_true, decide_eq_true_eq, ne_eq] at hmeets
  obtain ⟨old, hold, ⟨hhash, hother⟩, -⟩ := hmeets
  have heq : old = own := h.eq_of_key hold hown (hhash.trans hsame.symm)
  exact hother (heq ▸ hkey)

/-- The verdicts on a proof differ exactly when it meets a stranger in one of the states only. -/
theorem verdict_iff (h : SameRecords thumbprint since w w') (hsince : since ≤ p.createdAt) :
    (p.run w).1 = (p.run w').1 ↔
      p.meetsStranger thumbprint w = p.meetsStranger thumbprint w' := by
  cases hrow : p.record with
  | none =>
    have hverdict : ∀ v, (p.run v).1 = false := by
      intro v
      rcases run_ends p v with ⟨-, hverdict, -⟩ | ⟨row, hrow', -, -⟩
      · exact hverdict
      · rw [hrow] at hrow'
        cases hrow'
    simp [hverdict, Presentation.meetsStranger, hrow]
  | some row =>
    have hcreated := record_createdAt hrow
    by_cases hown : ∃ old ∈ w.db.agentDpopJtis, old.jtiHash = row.jtiHash ∧
        row.createdAt ≤ old.expiresAt ∧ old.keyThumbprint = thumbprint
    · have hown' := hown
      obtain ⟨old, hold, hsame, hlive, hkey⟩ := hown'
      have hold' := (h.same old hkey (hsince.trans (hcreated ▸ hlive))).mp hold
      rw [(run_refused_iff hrow).mpr (Or.inl hown),
        (run_refused_iff hrow).mpr (Or.inl ⟨old, hold', hsame, hlive, hkey⟩),
        not_meetsStranger h.keyed hrow hold hsame hkey,
        not_meetsStranger h.keyed' hrow hold' hsame hkey]
    · have hown' : ¬ ∃ old ∈ w'.db.agentDpopJtis, old.jtiHash = row.jtiHash ∧
          row.createdAt ≤ old.expiresAt ∧ old.keyThumbprint = thumbprint := by
        rintro ⟨old, hold, hsame, hlive, hkey⟩
        exact hown ⟨old, (h.same old hkey (hsince.trans (hcreated ▸ hlive))).mpr hold, hsame,
          hlive, hkey⟩
      have hverdict : (p.run w).1 = false ↔ _ ∨ p.meetsStranger thumbprint w = true :=
        run_refused_iff hrow
      have hverdict' : (p.run w').1 = false ↔ _ ∨ p.meetsStranger thumbprint w' = true :=
        run_refused_iff hrow
      rw [or_iff_right hown] at hverdict
      rw [or_iff_right hown'] at hverdict'
      cases hs : p.meetsStranger thumbprint w <;> cases hs' : p.meetsStranger thumbprint w' <;>
        simp_all

/-- A proof on which the verdicts agree leaves the same records of its key. -/
theorem proof (h : SameRecords thumbprint since w w') (hbefore : p.createdAt ≤ since)
    (hverdict : (p.run w).1 = (p.run w').1) :
    SameRecords thumbprint since (p.run w).2 (p.run w').2 where
  keyed := keyed_run h.keyed p
  keyed' := keyed_run h.keyed' p
  same old hold hlive := by
    have hlater := hbefore.trans hlive
    rw [mem_run hlater, mem_run hlater, hverdict, h.same old hold hlive]

end SameRecords

/-! ## Two sequences -/

/-- Each one is presented later than those before it. -/
def InOrder (presentations : List Presentation) : Prop :=
  presentations.Pairwise fun p q => p.createdAt ≤ q.createdAt

theorem observed_stranger {α : Type} {observe : Presentation → World → α}
    {rest : List Presentation} (hp : p.signedWith thumbprint = false) :
    observed thumbprint observe (p :: rest) w =
      observed thumbprint observe rest (p.run w).2 := by
  rw [observed, hp]
  rfl

theorem observed_proof {α : Type} {observe : Presentation → World → α}
    {rest : List Presentation} (hp : p.signedWith thumbprint = true) :
    observed thumbprint observe (p :: rest) w =
      observe p w :: observed thumbprint observe rest (p.run w).2 := by
  rw [observed, if_pos hp]

theorem observed_nil {α : Type} {observe : Presentation → World → α}
    {strangers : List Presentation}
    (hstrangers : ∀ p ∈ strangers, p.signedWith thumbprint = false) :
    observed thumbprint observe strangers w = [] := by
  induction strangers generalizing w with
  | nil => rfl
  | cons p strangers ih =>
    rw [observed_stranger (hstrangers p (List.mem_cons_self ..))]
    exact ih fun q hq => hstrangers q (List.mem_cons_of_mem p hq)

/-- The strangers before a time change neither what is observed later nor the records of a key
that have not expired by then. -/
theorem observed_skip {since : Time} (hkey : thumbprint ≠ "agent-auth")
    {strangers : List Presentation} (rest : List Presentation)
    (h : SameRecords thumbprint since w w')
    (hstrangers : ∀ p ∈ strangers, p.signedWith thumbprint = false)
    (hbefore : ∀ p ∈ strangers, p.createdAt ≤ since) :
    ∃ v, SameRecords thumbprint since v w' ∧
      ∀ {α : Type} (observe : Presentation → World → α),
        observed thumbprint observe (strangers ++ rest) w =
          observed thumbprint observe rest v := by
  induction strangers generalizing w with
  | nil => exact ⟨w, h, fun _ => rfl⟩
  | cons p strangers ih =>
    have hp := hstrangers p (List.mem_cons_self ..)
    obtain ⟨v, hsame, hobserved⟩ :=
      ih (h.stranger hkey hp (hbefore p (List.mem_cons_self ..)))
        (fun q hq => hstrangers q (List.mem_cons_of_mem p hq))
        fun q hq => hbefore q (List.mem_cons_of_mem p hq)
    refine ⟨v, hsame, fun observe => ?_⟩
    rw [List.cons_append, observed_stranger hp, hobserved]

/-- From two states with the same records of a key, the verdicts on its proofs agree exactly when
these meet strangers in the same places. -/
theorem verdicts_eq_iff {since : Time} (hkey : thumbprint ≠ "agent-auth")
    (proofs : List Presentation) {first second : List Presentation}
    (h : SameRecords thumbprint since w w') (hfirst : InOrder first) (hsecond : InOrder second)
    (hsince : ∀ p ∈ proofs, since ≤ p.createdAt)
    (hproofs : first.filter (·.signedWith thumbprint) = proofs)
    (hproofs' : second.filter (·.signedWith thumbprint) = proofs) :
    verdicts thumbprint first w = verdicts thumbprint second w' ↔
      strangersMet thumbprint first w = strangersMet thumbprint second w' := by
  induction proofs generalizing first second w w' since with
  | nil =>
    have hnone : ∀ {presentations : List Presentation},
        presentations.filter (·.signedWith thumbprint) = [] →
          ∀ p ∈ presentations, p.signedWith thumbprint = false := by
      intro presentations hfilter p hp
      simpa using List.filter_eq_nil_iff.mp hfilter p hp
    simp [verdicts, strangersMet, observed_nil (hnone hproofs), observed_nil (hnone hproofs')]
  | cons p proofs ih =>
    obtain ⟨strangers, rest, rfl, hstrangers, hp, hrest⟩ := List.filter_eq_cons_iff.mp hproofs
    obtain ⟨strangers', rest', rfl, hstrangers', -, hrest'⟩ :=
      List.filter_eq_cons_iff.mp hproofs'
    have hle := hsince p (List.mem_cons_self ..)
    obtain ⟨-, hordered, hcross⟩ := List.pairwise_append.mp hfirst
    obtain ⟨-, hordered', hcross'⟩ := List.pairwise_append.mp hsecond
    obtain ⟨hlater, hrestOrder⟩ := List.pairwise_cons.mp hordered
    have hrestOrder' := (List.pairwise_cons.mp hordered').2
    obtain ⟨v, hv, hobserved⟩ := observed_skip hkey (p :: rest) (h.mono hle)
      (fun q hq => by simpa using hstrangers q hq) fun q hq =>
        hcross q hq p (List.mem_cons_self ..)
    obtain ⟨v', hv', hobserved'⟩ := observed_skip hkey (p :: rest') hv.symm
      (fun q hq => by simpa using hstrangers' q hq) fun q hq =>
        hcross' q hq p (List.mem_cons_self ..)
    have hverdict := hv'.symm.verdict_iff le_rfl
    have hproofsLater : ∀ q ∈ proofs, p.createdAt ≤ q.createdAt := by
      intro q hq
      rw [← hrest] at hq
      exact hlater q (List.mem_of_mem_filter hq)
    have hnext : (p.run v).1 = (p.run v').1 →
        (verdicts thumbprint rest (p.run v).2 = verdicts thumbprint rest' (p.run v').2 ↔
          strangersMet thumbprint rest (p.run v).2 = strangersMet thumbprint rest' (p.run v').2) :=
      fun hagree => ih (hv'.symm.proof le_rfl hagree) hrestOrder hrestOrder' hproofsLater
        hrest hrest'
    simp only [verdicts, strangersMet] at hnext ⊢
    simp only [hobserved, hobserved', observed_proof hp, List.cons.injEq]
    constructor
    · rintro ⟨hagree, hrests⟩
      exact ⟨hverdict.mp hagree, (hnext hagree).mp hrests⟩
    · rintro ⟨hmet, hrests⟩
      have hagree := hverdict.mpr hmet
      exact ⟨hagree, (hnext hagree).mpr hrests⟩

/-- The proofs of a key fare alike in two sequences that differ in what others present exactly
when they meet the unexpired records of others in the same places. -/
theorem proofs_judged_alike_iff (hkey : thumbprint ≠ "agent-auth") (start : World)
    (hkeyed : Table.Keyed (·.jtiHash) start.db.agentDpopJtis)
    (first second : List Presentation) (hfirst : InOrder first) (hsecond : InOrder second)
    (hsame : first.filter (·.signedWith thumbprint) = second.filter (·.signedWith thumbprint)) :
    verdicts thumbprint first start = verdicts thumbprint second start ↔
      strangersMet thumbprint first start = strangersMet thumbprint second start :=
  verdicts_eq_iff hkey _ ⟨hkeyed, hkeyed, fun _ _ _ => Iff.rfl⟩ hfirst hsecond
    (fun _ _ => Nat.zero_le _) rfl hsame.symm

end Keys
end Presentations

namespace ProofSequencesExample

attribute [local instance] ReplayExample.platform

/-- The proofs of each key are named after it; all but one have the same identifier. -/
@[reducible] def jose : Jose where
  decodeProtectedHeader proof := some [("typ", .str "dpop+jwt"), ("alg", .str "EdDSA"),
    ("jwk", .obj [("kty", .str "OKP"), ("crv", .str "Ed25519"), ("x", .str proof)])]
  verifiedPayload proof _ _ := some [("htm", .str "POST"), ("htu", .str ReplayExample.target),
    ("jti", .str (if proof = "other" then "other" else "jti")), ("iat", .num 1000)]
  calculateJwkThumbprint jwk :=
    match jwk.field "x" with
    | some (.str x) => x
    | _ => ""

attribute [local instance] jose

def present (proof : String) : Presentation :=
  .proof (.token proof ReplayExample.target) 1000000 1000000

/-- The proof of a key is refused after a stranger presented one with the same identifier. -/
theorem stranger_refuses_proof :
    ¬ ∀ (thumbprint : String) (first second : List Presentation), InOrder first →
      InOrder second → first.filter (·.signedWith thumbprint) =
          second.filter (·.signedWith thumbprint) →
        verdicts thumbprint first ReplayExample.start =
          verdicts thumbprint second ReplayExample.start := by
  intro h
  have halike := h "mine" [present "mine"] [present "theirs", present "mine"]
    (List.pairwise_singleton _ _) (by simp [InOrder, present, Presentation.createdAt])
    (List.filter_cons_of_neg (by decide +kernel)).symm
  revert halike
  decide +kernel

theorem other_identifier_judged_alike :
    verdicts "mine" [present "mine"] ReplayExample.start =
        verdicts "mine" [present "other", present "mine"] ReplayExample.start ↔
      strangersMet "mine" [present "mine"] ReplayExample.start =
        strangersMet "mine" [present "other", present "mine"] ReplayExample.start :=
  proofs_judged_alike_iff (by decide) ReplayExample.start List.nodup_nil [present "mine"]
    [present "other", present "mine"] (List.pairwise_singleton _ _)
    (by simp [InOrder, present, Presentation.createdAt])
    (List.filter_cons_of_neg (by decide +kernel)).symm

end ProofSequencesExample

end Realmroot
