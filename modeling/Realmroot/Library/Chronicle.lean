import Realmroot.Library.Pool

/-!
# Chronicles

A ledger is kept beside a pool: each command that executes is entered, with the state in which it
does. Some commands are faults, in view of the ledger and the state. Where an invariant of the two
is kept by every command that is no fault, and a fault leaves a state that is not good, the states
of a run are all good exactly when no fault is among its commands.
-/

namespace AtomicProgram.Pool

variable {κ σ ρ ε α ι η τ : Type} [Executes κ σ] (S : System κ σ ρ ε α ι η)
  (enter : τ → κ → σ → τ)

/-- The ledger after an action. -/
def entered (t : τ) (P : Pool κ σ ρ ε α ι) (a : Action ρ ι η) : τ :=
  ((P.command? a).map fun c => enter t c P.state).getD t

/-- The states that the schedule passes through, the first one included, each with its ledger. -/
def chronicle : τ → Pool κ σ ρ ε α ι → List (Action ρ ι η) → List (τ × σ)
  | t, P, [] => [(t, P.state)]
  | t, P, a :: schedule => (t, P.state) :: chronicle (entered enter t P a) (P.act S a) schedule

/-- The commands that the schedule executes, each with the ledger and the state in which it
does. -/
def executed : τ → Pool κ σ ρ ε α ι → List (Action ρ ι η) → List (τ × κ × σ)
  | _, _, [] => []
  | t, P, a :: schedule =>
    ((P.command? a).map fun c => (t, c, P.state)).toList ++
      executed (entered enter t P a) (P.act S a) schedule

/-- What the commands in use keep of a ledger and a state, except for the faults among them. -/
structure Faults (uses : κ → Prop) (good : τ → σ → Prop) (fault : τ → κ → σ → Prop) where
  inv : τ → σ → Prop
  program : ∀ request, (S.program request).Uses uses
  good_of_inv : ∀ {t s}, inv t s → good t s
  exec : ∀ {t c s}, uses c → inv t s → ¬ fault t c s → inv (enter t c s) (exec c s)
  breaks : ∀ {t c s}, uses c → inv t s → fault t c s → ¬ good (enter t c s) (Executes.exec c s)
  environment : ∀ {t s} e, inv t s → inv t (S.environment e s)

variable {S enter} {uses : κ → Prop} {good : τ → σ → Prop} {fault : τ → κ → σ → Prop}
  {P : Pool κ σ ρ ε α ι} {t : τ}

theorem head_mem_chronicle (schedule : List (Action ρ ι η)) :
    (t, P.state) ∈ P.chronicle S enter t schedule := by
  cases schedule with
  | nil => exact List.mem_singleton_self _
  | cons a schedule => exact List.mem_cons_self

/-- An action whose command, if it has one, is no fault. -/
theorem Faults.act (F : Faults S enter uses good fault) (hP : P.AllUse fun _ => uses)
    (hinv : F.inv t P.state) {a : Action ρ ι η}
    (hfault : ∀ c, P.command? a = some c → ¬ fault t c P.state) :
    F.inv (entered enter t P a) (P.act S a).state := by
  cases hc : P.command? a with
  | some c =>
    obtain ⟨-, huses⟩ := hP.command hc
    rw [act_state S hc, entered, hc]
    exact F.exec huses hinv (hfault c hc)
  | none =>
    rw [entered, hc]
    cases a with
    | start request => exact hinv
    | environment e => exact F.environment e hinv
    | advance i reply =>
      rw [act_state_of_none hc (by simp)]
      exact hinv

/-- All states are good exactly when no command is a fault. -/
theorem Faults.good_iff (F : Faults S enter uses good fault) (hP : P.AllUse fun _ => uses)
    (hinv : F.inv t P.state) (schedule : List (Action ρ ι η)) :
    (∀ x ∈ P.chronicle S enter t schedule, good x.1 x.2) ↔
      ∀ x ∈ P.executed S enter t schedule, ¬ fault x.1 x.2.1 x.2.2 := by
  induction schedule generalizing P t with
  | nil => simpa [chronicle, executed] using F.good_of_inv hinv
  | cons a schedule ih =>
    simp only [chronicle, executed, List.forall_mem_cons, List.forall_mem_append]
    have hnext : (∀ c, P.command? a = some c → ¬ fault t c P.state) →
        ((∀ x ∈ (P.act S a).chronicle S enter (entered enter t P a) schedule, good x.1 x.2) ↔
          ∀ x ∈ (P.act S a).executed S enter (entered enter t P a) schedule,
            ¬ fault x.1 x.2.1 x.2.2) :=
      fun hfault => ih (hP.act F.program a) (F.act hP hinv hfault)
    constructor
    · intro h
      have hfault : ∀ c, P.command? a = some c → ¬ fault t c P.state := by
        intro c hc hbad
        obtain ⟨-, huses⟩ := hP.command hc
        have hgood := h.2 _ (head_mem_chronicle schedule)
        rw [act_state S hc, entered, hc] at hgood
        exact F.breaks huses hinv hbad hgood
      refine ⟨?_, (hnext hfault).mp h.2⟩
      intro x hx
      obtain ⟨c, hc, rfl⟩ := Option.map_eq_some_iff.mp (Option.mem_toList.mp hx)
      exact hfault c hc
    · intro h
      refine ⟨F.good_of_inv hinv, (hnext ?_).mpr h.2⟩
      intro c hc
      exact h.1 (t, c, P.state) (by simp [hc])

/-- The states of a run that starts with nothing in progress. -/
theorem Faults.run_good_iff (F : Faults S enter uses good fault) {s : σ} (hinv : F.inv t s)
    (schedule : List (Action ρ ι η)) :
    (∀ x ∈ (idle s).chronicle S enter t schedule, good x.1 x.2) ↔
      ∀ x ∈ (idle s).executed S enter t schedule, ¬ fault x.1 x.2.1 x.2.2 :=
  F.good_iff (allUse_idle s) hinv schedule

end AtomicProgram.Pool
