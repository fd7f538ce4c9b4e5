import Realmroot.Library.Phases
import Realmroot.World

/-!
# Rules for requests

One rule for each primitive of a request, under any contract, and the contract
of a request that nothing else disturbs: the database stays as the request
leaves it, and the clock does not go back.
-/

namespace Realmroot

open AtomicProgram Program

variable {α β : Type} {C : Contract Command World Reply} {post : Except Error β → World → Prop}
  {w : World}

theorem meets_query {select : Database → α} {next : α → Request β}
    (h : ∀ t, C.rely w t → C.allowed .read t →
      C.guarantee .read t ∧ (next (select t.db)).Meets C post t) :
    (query select >>= next).Meets C post w := h

theorem meets_currentTime {next : Time → Request β}
    (h : ∀ t, C.rely w t → C.allowed .read t →
      C.guarantee .read t ∧ (next t.clock).Meets C post t) :
    (currentTime >>= next).Meets C post w := h

theorem meets_randomString {next : String → Request β}
    (h : ∀ r t, C.answers r → C.rely w t → (next r.random).Meets C post t) :
    (randomString >>= next).Meets C post w := h

theorem meets_sealSecret {plaintext context : String} {next : String → Request β}
    (h : ∀ r t, C.answers r → C.rely w t → (next (r.sealing plaintext context)).Meets C post t) :
    (sealSecret plaintext context >>= next).Meets C post w := h

theorem meets_generateId [Platform] {next : String → Request β}
    (h : ∀ t, C.rely w t → C.allowed .generateId t → C.guarantee .generateId t ∧
      (next (Platform.generateId t.nextId)).Meets C post (exec Command.generateId t)) :
    (generateId >>= next).Meets C post w := h

theorem meets_orThrow {error : Error} {value : Option α} {next : α → Request β}
    (herror : value = none → post (.error error) w)
    (h : ∀ a, value = some a → (next a).Meets C post w) :
    (orThrow error value >>= next).Meets C post w := by
  cases value with
  | none => exact herror rfl
  | some a => exact h a rfl

theorem meets_orThrow_some {error : Error} {a : α} {next : α → Request β}
    (h : (next a).Meets C post w) : (orThrow error (some a) >>= next).Meets C post w := h

theorem meets_throwIf {condition : Prop} [Decidable condition] {error : Error}
    {next : Unit → Request β} (herror : condition → post (.error error) w)
    (h : ¬ condition → (next ()).Meets C post w) :
    (throwIf condition error >>= next).Meets C post w := by
  unfold throwIf
  split_ifs with hc
  · exact herror hc
  · exact h hc

theorem meets_ofResult {value : Except Error α} {next : α → Request β}
    (herror : ∀ e, value = .error e → post (.error e) w)
    (h : ∀ a, value = .ok a → (next a).Meets C post w) :
    (ofResult value >>= next).Meets C post w := by
  cases value with
  | error e => exact herror e rfl
  | ok a => exact h a rfl

theorem meets_perform {command : Command} {statement : Statement α} {next : α → Request β}
    (h : ∀ t, C.rely w t → C.allowed command t → C.guarantee command t ∧
      match statement t.db with
      | .ok (a, _) => (next a).Meets C post (exec command t)
      | .error e => post (.error e) (exec command t)) :
    (perform command statement >>= next).Meets C post w := by
  intro t hst hc
  refine ⟨(h t hst hc).1, ?_⟩
  have hnext := (h t hst hc).2
  change Meets C post (Program.bind (match statement t.db with
    | .ok (a, _) => .pure a
    | .error e => .throw e) next) _
  cases hs : statement t.db with
  | ok result =>
    rw [hs] at hnext
    exact hnext
  | error e =>
    rw [hs] at hnext
    exact hnext

/-- The rule of a statement that nothing follows. -/
theorem meets_perform_last {command : Command} {statement : Statement α}
    {post : Except Error α → World → Prop}
    (h : ∀ t, C.rely w t → C.allowed command t → C.guarantee command t ∧
      match statement t.db with
      | .ok (a, _) => post (.ok a) (exec command t)
      | .error e => post (.error e) (exec command t)) :
    (perform command statement).Meets C post w := by
  intro t hst hc
  refine ⟨(h t hst hc).1, ?_⟩
  have hpost := (h t hst hc).2
  dsimp only
  cases hs : statement t.db with
  | ok result =>
    rw [hs] at hpost
    exact hpost
  | error e =>
    rw [hs] at hpost
    exact hpost

theorem exec_access_of_ok {command : AccessCommand} {a : command.Answer} {db : Database}
    (h : command.statement w.db = .ok (a, db)) :
    exec (Command.access command) w = { w with db := db } := by
  rw [← AccessCommand.after_of_ok h]
  rfl

theorem exec_access_of_error {command : AccessCommand} {e : Error}
    (h : command.statement w.db = .error e) : exec (Command.access command) w = w := by
  have hdb : command.after w.db = w.db := AccessCommand.after_of_error h
  change { w with db := command.after w.db } = w
  rw [hdb]

/-- The rule of a statement on permissions, by what it answers. -/
theorem meets_execute {command : AccessCommand} {next : command.Answer → Request β}
    (h : ∀ t, C.rely w t → C.allowed (.access command) t → C.guarantee (.access command) t ∧
      (∀ a db, command.statement t.db = .ok (a, db) →
        (next a).Meets C post { t with db := db }) ∧
      ∀ e, command.statement t.db = .error e → post (.error e) t) :
    (execute command >>= next).Meets C post w := by
  unfold execute
  apply meets_perform
  intro t hst hallowed
  obtain ⟨hguarantee, hok, herror⟩ := h t hst hallowed
  refine ⟨hguarantee, ?_⟩
  cases hs : command.statement t.db with
  | ok result =>
    rw [exec_access_of_ok hs]
    exact hok result.1 result.2 hs
  | error e =>
    rw [exec_access_of_error hs]
    exact herror e hs

/-- The same when nothing follows the statement. -/
theorem meets_execute_last {command : AccessCommand}
    {post : Except Error command.Answer → World → Prop}
    (h : ∀ t, C.rely w t → C.allowed (.access command) t → C.guarantee (.access command) t ∧
      (∀ a db, command.statement t.db = .ok (a, db) → post (.ok a) { t with db := db }) ∧
      ∀ e, command.statement t.db = .error e → post (.error e) t) :
    (execute command).Meets C post w := by
  unfold execute
  apply meets_perform_last
  intro t hst hallowed
  obtain ⟨hguarantee, hok, herror⟩ := h t hst hallowed
  refine ⟨hguarantee, ?_⟩
  cases hs : command.statement t.db with
  | ok result =>
    rw [exec_access_of_ok hs]
    exact hok result.1 result.2 hs
  | error e =>
    rw [exec_access_of_error hs]
    exact herror e hs

/-! ## The commands of a request -/

section Uses

variable {P : Command → Prop} {next : α → Request β}

@[simp] theorem uses_query {select : Database → α} : (query select).Uses P ↔ P .read :=
  ⟨fun h => h.1, fun h => ⟨h, fun _ => trivial⟩⟩

theorem uses_queryWhen {γ : Type} {key : Option γ} {select : γ → Database → Option α}
    (h : P .read) : (queryWhen key select).Uses P := by
  cases key with
  | none => trivial
  | some b => exact uses_query.mpr h

@[simp] theorem uses_currentTime : currentTime.Uses P ↔ P .read :=
  ⟨fun h => h.1, fun h => ⟨h, fun _ => trivial⟩⟩

@[simp] theorem uses_randomString : randomString.Uses P := fun _ => trivial

@[simp] theorem uses_orThrow {error : Error} {value : Option α} :
    (orThrow error value).Uses P := by
  cases value <;> trivial

@[simp] theorem uses_ofResult {value : Except Error α} : (ofResult value).Uses P := by
  cases value <;> trivial

@[simp] theorem uses_fetchPeer {request : PeerRequest} :
    (fetchPeer request).Uses P ↔ P (.send request) :=
  ⟨fun h => h.1, fun h => ⟨h, fun _ _ => trivial⟩⟩

@[simp] theorem uses_sealSecret {plaintext context : String} :
    (sealSecret plaintext context).Uses P := fun _ => trivial

@[simp] theorem uses_throwIf {condition : Prop} [Decidable condition] {error : Error} :
    (throwIf condition error).Uses P := by
  unfold throwIf
  split_ifs <;> trivial

@[simp] theorem uses_generateId [Platform] : generateId.Uses P ↔ P .generateId :=
  ⟨fun h => h.1, fun h => ⟨h, fun _ => trivial⟩⟩

@[simp] theorem uses_perform {command : Command} {statement : Statement α} :
    (perform command statement).Uses P ↔ P command := by
  refine ⟨fun h => h.1, fun h => ⟨h, fun w => ?_⟩⟩
  dsimp only
  split <;> trivial

theorem uses_bind {p : Request α} (hp : p.Uses P) (hnext : ∀ a, (next a).Uses P) :
    (p >>= next).Uses P := hp.bind hnext

end Uses

/-! ## What requests return -/

section Returns

variable {Q : α → Prop}

theorem returns_query {select : Database → α} (h : ∀ db, Q (select db)) :
    (query select).Returns Q := fun s => h s.db

theorem returns_orThrow {error : Error} {value : Option α} (h : ∀ a, value = some a → Q a) :
    (orThrow error value).Returns Q := by
  cases value with
  | none => trivial
  | some a => exact h a rfl

end Returns

/-! ## Phased requests -/

section Conforms

variable {φ : Type} {D : Phases Command World Reply φ} {after : β → φ → Prop} {phase : φ}

theorem conforms_query {select : Database → α} {next : α → Request β}
    (hread : D.issues phase .read)
    (h : ∀ s, D.inv s → (next (select s.db)).Conforms D after (D.advance phase .read)) :
    (query select >>= next).Conforms D after phase := ⟨hread, h⟩

theorem conforms_currentTime {next : Time → Request β} (hread : D.issues phase .read)
    (h : ∀ now, (next now).Conforms D after (D.advance phase .read)) :
    (currentTime >>= next).Conforms D after phase := ⟨hread, fun _ _ => h _⟩

theorem conforms_generateId [Platform] {next : String → Request β}
    (hid : D.issues phase .generateId)
    (h : ∀ id, (next id).Conforms D after (D.advance phase .generateId)) :
    (generateId >>= next).Conforms D after phase := ⟨hid, fun _ _ => h _⟩

theorem conforms_orThrow {error : Error} {value : Option α} {next : α → Request β}
    (h : ∀ a, value = some a → (next a).Conforms D after phase) :
    (orThrow error value >>= next).Conforms D after phase := by
  cases value with
  | none => trivial
  | some a => exact h a rfl

theorem conforms_ofResult {value : Except Error α} {next : α → Request β}
    (h : ∀ a, value = .ok a → (next a).Conforms D after phase) :
    (ofResult value >>= next).Conforms D after phase := by
  cases value with
  | error e => trivial
  | ok a => exact h a rfl

theorem conforms_throwIf {condition : Prop} [Decidable condition] {error : Error}
    {next : Unit → Request β} (h : ¬ condition → (next ()).Conforms D after phase) :
    (throwIf condition error >>= next).Conforms D after phase := by
  unfold throwIf
  split_ifs with hc
  · trivial
  · exact h hc

theorem conforms_fetchPeer {request : PeerRequest} {next : Option PeerResponse → Request β}
    (hsend : D.issues phase (.send request))
    (h : ∀ reply, D.answers reply →
      (next (reply.respond request)).Conforms D after (D.advance phase (.send request))) :
    (fetchPeer request >>= next).Conforms D after phase := ⟨hsend, fun _ _ => h⟩

theorem conforms_sealSecret {plaintext context : String} {next : String → Request β}
    (h : ∀ reply, D.answers reply →
      (next (reply.sealing plaintext context)).Conforms D after phase) :
    (sealSecret plaintext context >>= next).Conforms D after phase := h

theorem conforms_perform {command : Command} {statement : Statement α} {next : α → Request β}
    (hcommand : D.issues phase command)
    (h : ∀ s a db', D.inv s → statement s.db = .ok (a, db') →
      (next a).Conforms D after (D.advance phase command)) :
    (perform command statement >>= next).Conforms D after phase := by
  refine ⟨hcommand, fun s hs => ?_⟩
  dsimp only
  cases hok : statement s.db with
  | ok result => exact h s result.1 result.2 hs hok
  | error e => trivial

theorem conforms_bind {p : Request α} {middle : α → φ → Prop} {next : α → Request β}
    (hp : p.Conforms D middle phase)
    (h : ∀ a later, middle a later → (next a).Conforms D after later) :
    (p >>= next).Conforms D after phase := hp.bind h

end Conforms

/-! ## Undisturbed requests -/

/-- Others leave the database alone, and time passes. -/
def Undisturbed (s t : World) : Prop :=
  t.db = s.db ∧ t.nextId = s.nextId ∧ s.clock ≤ t.clock

theorem Undisturbed.refl (s : World) : Undisturbed s s := ⟨rfl, rfl, le_rfl⟩

theorem Undisturbed.trans {s t u : World} (h : Undisturbed s t) (h' : Undisturbed t u) :
    Undisturbed s u :=
  ⟨h'.1.trans h.1, h'.2.1.trans h.2.1, h.2.2.trans h'.2.2⟩

/-- The surroundings of a request that runs alone. -/
def Quiescent (around : Surroundings World Reply) : Prop :=
  ∀ n s, Undisturbed s (around.elapse n s)

/-- The contract of a request that runs alone, whatever is replied to it. -/
def undisturbed : Contract Command World Reply := alone Command Undisturbed fun _ => True

/-- A postcondition that only says what a success means. -/
def onSuccess (P : α → World → Prop) : Except Error α → World → Prop
  | .ok a, t => P a t
  | .error _, _ => True

/-- A request whose specification is known, at the head of a longer one. -/
theorem meets_call {p : Request α} {next : α → Request β} {Q : α → World → Prop}
    {P : β → World → Prop} (hp : p.Meets C (onSuccess Q) w)
    (h : ∀ a t, Q a t → (next a).Meets C (onSuccess P) t) :
    (p >>= next).Meets C (onSuccess P) w := by
  rw [Program.bind_eq, meets_bind]
  apply hp.mono
  rintro (e | a) t ht
  · trivial
  · exact h a t ht

/-- No command moves the clock. -/
theorem exec_clock (c : Command) (w : World) : (exec c w).clock = w.clock := by
  cases c <;> rfl

/-- Only the generator moves the counter of identifiers. -/
theorem nextId_exec (c : Command) (w : World) : w.nextId ≤ (exec c w).nextId := by
  cases c with
  | generateId => exact Nat.le_succ _
  | _ => exact le_rfl

/-- Alone, a request ends no earlier than it begins. -/
theorem undisturbed_clock {γ : Type} (p : Request γ) (w : World) :
    p.Meets undisturbed (onSuccess fun _ t => w.clock ≤ t.clock) w := by
  have hlater : ∀ s, w.clock ≤ s.clock →
      p.Meets undisturbed (onSuccess fun _ t => w.clock ≤ t.clock) s := by
    induction p with
    | pure a => exact fun s hs => hs
    | throw e => exact fun s hs => trivial
    | call c next ih =>
      intro s hs t hst _
      refine ⟨trivial, ih t _ ?_⟩
      rw [exec_clock]
      exact hs.trans hst.2.2
    | ask next ih =>
      intro s hs reply t _ hst
      exact ih reply t (hs.trans hst.2.2)
  exact hlater w le_rfl

theorem quiet_read : Quiet undisturbed (· = Command.read) where
  refl := Undisturbed.refl
  trans := Undisturbed.trans
  guarantee _ _ _ _ := trivial
  moves c hc s _ := by
    subst hc
    exact Undisturbed.refl s

/-- A request that only reads, at the head of a longer one. -/
theorem undisturbed_reads {p : Request α} {next : α → Request β} {P : β → World → Prop}
    (hp : p.Uses (· = .read))
    (h : ∀ a t, Undisturbed w t → (next a).Meets undisturbed (onSuccess P) t) :
    (p >>= next).Meets undisturbed (onSuccess P) w :=
  quiet_read.meets_bind hp h fun _ _ _ => trivial

/-! ## Runs alone -/

section Runs

variable {around : Surroundings World Reply} {n : ℕ}

theorem execute_query {select : Database → α} {next : α → Request β} :
    (query select >>= next).execute around n w =
      (next (select (around.elapse n w).db)).execute around (n + 1) (around.elapse n w) := rfl

theorem execute_currentTime {next : Time → Request β} :
    (currentTime >>= next).execute around n w =
      (next (around.elapse n w).clock).execute around (n + 1) (around.elapse n w) := rfl

theorem execute_perform {command : Command} {statement : Statement α} {next : α → Request β}
    {answer : α} {db' : Database} (h : statement (around.elapse n w).db = .ok (answer, db')) :
    (perform command statement >>= next).execute around n w =
      (next answer).execute around (n + 1) (exec command (around.elapse n w)) := by
  change Program.execute around (n + 1) (Program.bind (match statement (around.elapse n w).db with
    | .ok (a, _) => .pure a
    | .error e => .throw e) next) (exec command (around.elapse n w)) = _
  rw [h]
  rfl

theorem execute_orThrow_some {error : Error} {a : α} {next : α → Request β} :
    (orThrow error (some a) >>= next).execute around n w = (next a).execute around n w := rfl

theorem execute_orThrow_none {error : Error} {next : α → Request β} :
    (orThrow error none >>= next).execute around n w = (.error error, w) := rfl

end Runs

end Realmroot
