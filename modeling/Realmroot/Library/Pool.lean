import Realmroot.Library.Contract

/-!
# Interleavings

A pool holds a shared state and any number of programs in progress, each with
the request that started it. A schedule is a list of actions: start a request,
let one program execute its next command, or let the environment change the
state. Every interleaving is a schedule, so a statement about all interleavings
quantifies over schedules.
-/

namespace AtomicProgram

/-- The requests of a system, the programs that serve them, and what the
environment may do to the state. -/
structure System (κ σ ρ ε α ι η : Type) where
  program : ι → Program κ σ ρ ε α
  environment : η → σ → σ

/-- The shared state and the programs in progress. -/
structure Pool (κ σ ρ ε α ι : Type) where
  state : σ
  procs : List (ι × Program κ σ ρ ε α)

inductive Action (ρ ι η : Type) where
  | start (request : ι)
  | advance (index : ℕ) (reply : ρ)
  | environment (event : η)

namespace Program

variable {κ σ ρ ε α : Type} [Executes κ σ]

/-- The program after its next command, with the reply it gets if it asks. -/
def next (reply : ρ) (s : σ) : Program κ σ ρ ε α → Program κ σ ρ ε α
  | .call _ next => next s
  | .ask next => next reply
  | p => p

/-- The state after the next command of the program. -/
def after (s : σ) : Program κ σ ρ ε α → σ
  | .call c _ => exec c s
  | _ => s

end Program

namespace Pool

variable {κ σ ρ ε α ι η : Type} [Executes κ σ] (S : System κ σ ρ ε α ι η)

/-- A state in which nothing is in progress. -/
def idle (s : σ) : Pool κ σ ρ ε α ι := { state := s, procs := [] }

omit [Executes κ σ] in
@[simp] theorem idle_state (s : σ) : (idle s : Pool κ σ ρ ε α ι).state = s := rfl

omit [Executes κ σ] in
@[simp] theorem idle_procs (s : σ) : (idle s : Pool κ σ ρ ε α ι).procs = [] := rfl

def act (P : Pool κ σ ρ ε α ι) : Action ρ ι η → Pool κ σ ρ ε α ι
  | .start request => { P with procs := P.procs ++ [(request, S.program request)] }
  | .advance i reply =>
    match P.procs[i]? with
    | some (request, p) =>
      { state := p.after P.state, procs := P.procs.set i (request, p.next reply P.state) }
    | none => P
  | .environment event => { P with state := S.environment event P.state }

/-- The pool after a schedule. -/
def run (P : Pool κ σ ρ ε α ι) (schedule : List (Action ρ ι η)) : Pool κ σ ρ ε α ι :=
  schedule.foldl (act S) P

/-- The command that an action executes. -/
def command? (P : Pool κ σ ρ ε α ι) : Action ρ ι η → Option κ
  | .advance i _ => (P.procs[i]?).bind fun entry => entry.2.command?
  | _ => none

/-- Every request that the schedule starts is accepted, and every command and
every event of the environment is allowed in the state in which it takes place. -/
def Along (accepts : ι → Prop) (allowed : κ → σ → Prop) (admits : η → σ → Prop) :
    Pool κ σ ρ ε α ι → List (Action ρ ι η) → Prop
  | _, [] => True
  | P, a :: schedule =>
    (∀ request, a = .start request → accepts request) ∧
      (∀ c, P.command? a = some c → allowed c P.state) ∧
        (∀ event, a = .environment event → admits event P.state) ∧
          Along accepts allowed admits (P.act S a) schedule

/-- The states that the schedule passes through, the first one included. -/
def states : Pool κ σ ρ ε α ι → List (Action ρ ι η) → List σ
  | P, [] => [P.state]
  | P, a :: schedule => P.state :: states (P.act S a) schedule

@[simp] theorem run_nil (P : Pool κ σ ρ ε α ι) : P.run S [] = P := rfl

@[simp] theorem run_cons (P : Pool κ σ ρ ε α ι) (a : Action ρ ι η)
    (schedule : List (Action ρ ι η)) : P.run S (a :: schedule) = (P.act S a).run S schedule := rfl

theorem run_append (P : Pool κ σ ρ ε α ι) (first second : List (Action ρ ι η)) :
    P.run S (first ++ second) = (P.run S first).run S second := List.foldl_append

/-- The command of an action is what the action does to the state. -/
theorem act_state {P : Pool κ σ ρ ε α ι} {a : Action ρ ι η} {c : κ}
    (hc : P.command? a = some c) : (P.act S a).state = exec c P.state := by
  cases a with
  | start request => simp [command?] at hc
  | environment e => simp [command?] at hc
  | advance i reply =>
    cases hget : P.procs[i]? with
    | none => simp [command?, hget] at hc
    | some entry =>
      obtain ⟨request, p⟩ := entry
      simp only [command?, hget, Option.bind_some] at hc
      cases p with
      | call c' next =>
        rw [Program.command?, Option.some.injEq] at hc
        simp [act, hget, Program.after, hc]
      | pure a => simp [Program.command?] at hc
      | throw e => simp [Program.command?] at hc
      | ask next => simp [Program.command?] at hc

/-- What every command and every event keeps, every schedule keeps. -/
theorem run_keeps {p : σ → Prop} (hexec : ∀ (c : κ) s, p s → p (exec c s))
    (henvironment : ∀ e s, p s → p (S.environment e s)) (P : Pool κ σ ρ ε α ι)
    (schedule : List (Action ρ ι η)) (h : p P.state) : p (P.run S schedule).state := by
  induction schedule generalizing P with
  | nil => exact h
  | cons a schedule ih =>
    apply ih
    cases a with
    | start request => exact h
    | environment e => exact henvironment e _ h
    | advance i reply =>
      rw [act]
      split
      · rename_i request q _
        cases q with
        | call c next => exact hexec c _ h
        | pure a => exact h
        | throw e => exact h
        | ask next => exact h
      · exact h

/-- Every program in progress only executes commands that satisfy `Q` for its request. -/
def AllUse (Q : ι → κ → Prop) (P : Pool κ σ ρ ε α ι) : Prop :=
  ∀ entry ∈ P.procs, entry.2.Uses (Q entry.1)

omit [Executes κ σ] in
theorem allUse_idle {Q : ι → κ → Prop} (s : σ) : AllUse Q (idle s : Pool κ σ ρ ε α ι) :=
  fun _ he => absurd he List.not_mem_nil

/-- A condition on each step of the schedule: on the pool before it, and the action. -/
def Throughout (ok : Pool κ σ ρ ε α ι → Action ρ ι η → Prop) :
    Pool κ σ ρ ε α ι → List (Action ρ ι η) → Prop
  | _, [] => True
  | P, a :: schedule => ok P a ∧ Throughout ok (P.act S a) schedule

/-- The commands that the schedule executes, each with the state in which it does. -/
def commands : Pool κ σ ρ ε α ι → List (Action ρ ι η) → List (κ × σ)
  | _, [] => []
  | P, a :: schedule =>
    ((P.command? a).map fun c => (c, P.state)).toList ++ commands (P.act S a) schedule

/-- The request that an action advances, with the command that it executes. -/
def step? (P : Pool κ σ ρ ε α ι) : Action ρ ι η → Option (ι × κ)
  | .advance i _ =>
    (P.procs[i]?).bind fun entry => (entry.2.command?).map fun c => (entry.1, c)
  | _ => none

omit [Executes κ σ] in
theorem step?_command {P : Pool κ σ ρ ε α ι} {a : Action ρ ι η} {step : ι × κ}
    (h : P.step? a = some step) : P.command? a = some step.2 := by
  cases a with
  | start request => cases h
  | environment e => cases h
  | advance i reply =>
    obtain ⟨entry, hget, hcommand⟩ := Option.bind_eq_some_iff.mp h
    obtain ⟨c, hc, rfl⟩ := Option.map_eq_some_iff.mp hcommand
    simp [command?, hget, hc]

/-- The commands that the schedule executes, each with its request and the state in which
it does. -/
def history : Pool κ σ ρ ε α ι → List (Action ρ ι η) → List (ι × κ × σ)
  | _, [] => []
  | P, a :: schedule =>
    ((P.step? a).map fun step => (step.1, step.2, P.state)).toList ++
      history (P.act S a) schedule

section Uses

variable {S} {Q : ι → κ → Prop} {P : Pool κ σ ρ ε α ι}

theorem AllUse.act (h : P.AllUse Q)
    (hprogram : ∀ request, (S.program request).Uses (Q request))
    (a : Action ρ ι η) : (P.act S a).AllUse Q := by
  intro entry hentry
  cases a with
  | start request =>
    rcases List.mem_append.mp hentry with hold | hnew
    · exact h entry hold
    · rw [List.mem_singleton.mp hnew]
      exact hprogram request
  | environment e => exact h entry hentry
  | advance i reply =>
    cases hget : P.procs[i]? with
    | none =>
      simp only [Pool.act, hget] at hentry
      exact h entry hentry
    | some old =>
      simp only [Pool.act, hget] at hentry
      rcases List.mem_or_eq_of_mem_set hentry with hold | rfl
      · exact h entry hold
      · have huses := h old (List.mem_of_getElem? hget)
        cases hp : old.2 with
        | pure a => trivial
        | throw e => trivial
        | call c next =>
          rw [hp] at huses
          exact huses.2 P.state
        | ask next =>
          rw [hp] at huses
          exact huses reply

omit [Executes κ σ] in
/-- The next command of a program in progress is one that its request uses. -/
theorem AllUse.next (h : P.AllUse Q) {i : ℕ} {entry : ι × Program κ σ ρ ε α}
    (hget : P.procs[i]? = some entry) {c : κ} (hc : entry.2.command? = some c) : Q entry.1 c := by
  have huses := h entry (List.mem_of_getElem? hget)
  cases hp : entry.2 with
  | call c' next =>
    rw [hp] at huses hc
    rw [Program.command?, Option.some.injEq] at hc
    exact hc ▸ huses.1
  | pure a => simp [hp, Program.command?] at hc
  | throw e => simp [hp, Program.command?] at hc
  | ask next => simp [hp, Program.command?] at hc

omit [Executes κ σ] in
/-- The command of an action is the next one of a program in progress. -/
theorem command?_eq_some {a : Action ρ ι η} {c : κ} (hc : P.command? a = some c) :
    ∃ i reply entry, a = .advance i reply ∧ P.procs[i]? = some entry ∧
      entry.2.command? = some c := by
  cases a with
  | start request => simp [command?] at hc
  | environment e => simp [command?] at hc
  | advance i reply =>
    obtain ⟨entry, hget, hcommand⟩ := Option.bind_eq_some_iff.mp hc
    exact ⟨i, reply, entry, rfl, hget, hcommand⟩

omit [Executes κ σ] in
theorem AllUse.command (h : P.AllUse Q) {a : Action ρ ι η} {c : κ}
    (hc : P.command? a = some c) : ∃ request, Q request c := by
  obtain ⟨i, reply, entry, -, hget, hcommand⟩ := command?_eq_some hc
  exact ⟨entry.1, h.next hget hcommand⟩

/-- A step that executes no command and is no event leaves the state alone. -/
theorem act_state_of_none {a : Action ρ ι η} (hc : P.command? a = none)
    (he : ∀ e, a ≠ .environment e) : (P.act S a).state = P.state := by
  cases a with
  | start request => rfl
  | environment e => exact absurd rfl (he e)
  | advance i reply =>
    cases hget : P.procs[i]? with
    | none => simp [act, hget]
    | some entry =>
      simp only [command?, hget, Option.bind_some] at hc
      cases hp : entry.2 with
      | call c next => simp [hp, Program.command?] at hc
      | pure a => simp [act, hget, hp, Program.after]
      | throw e => simp [act, hget, hp, Program.after]
      | ask next => simp [act, hget, hp, Program.after]

/-- A list that grows by what each command adds has, after a schedule, what the
commands of the schedule added, in their order. -/
theorem run_adds {β : Type} (hprogram : ∀ request, (S.program request).Uses (Q request))
    {view : σ → List β} {adds : κ → σ → List β}
    (hexec : ∀ request c s, Q request c → view (exec c s) = view s ++ adds c s)
    (henvironment : ∀ e s, view (S.environment e s) = view s) (h : P.AllUse Q)
    (schedule : List (Action ρ ι η)) :
    view (P.run S schedule).state =
      view P.state ++ (P.commands S schedule).flatMap fun entry => adds entry.1 entry.2 := by
  induction schedule generalizing P with
  | nil => simp [commands]
  | cons a schedule ih =>
    rw [run_cons, ih (h.act hprogram a), commands, List.flatMap_append, ← List.append_assoc]
    congr 1
    cases hc : P.command? a with
    | some c =>
      obtain ⟨request, hrequest⟩ := h.command hc
      simp [act_state S hc, hexec request c P.state hrequest]
    | none =>
      cases a with
      | environment e => simp [act, henvironment]
      | start request => simp [act]
      | advance i reply => rw [act_state_of_none hc (by simp)]; simp

end Uses

/-! ### Conditions on every step -/

section Throughout

variable {S} {ok : Pool κ σ ρ ε α ι → Action ρ ι η → Prop} {I : Pool κ σ ρ ε α ι → Prop}
  {R : σ → σ → Prop} {P : Pool κ σ ρ ε α ι} {schedule : List (Action ρ ι η)}

/-- What every step of the schedule implies holds throughout it. -/
theorem Throughout.mono {ok' : Pool κ σ ρ ε α ι → Action ρ ι η → Prop}
    (h : Throughout S ok P schedule) (hP : I P)
    (hstep : ∀ P a, I P → ok P a → I (P.act S a) ∧ ok' P a) : Throughout S ok' P schedule := by
  induction schedule generalizing P with
  | nil => trivial
  | cons a schedule ih =>
    obtain ⟨hinv, hok⟩ := hstep P a hP h.1
    exact ⟨hok, ih h.2 hinv⟩

/-- What every step keeps holds after the schedule. -/
theorem Throughout.run (h : Throughout S ok P schedule) (hP : I P)
    (hstep : ∀ P a, I P → ok P a → I (P.act S a)) : I (P.run S schedule) := by
  induction schedule generalizing P with
  | nil => exact hP
  | cons a schedule ih => exact ih h.2 (hstep P a hP h.1)

/-- What every step keeps of the state holds in every state that the schedule passes. -/
theorem Throughout.states {J : σ → Prop} (h : Throughout S ok P schedule) (hP : I P)
    (hJ : ∀ P, I P → J P.state) (hstep : ∀ P a, I P → ok P a → I (P.act S a)) :
    ∀ s ∈ P.states S schedule, J s := by
  induction schedule generalizing P with
  | nil =>
    intro s hs
    rw [Pool.states, List.mem_singleton] at hs
    exact hs ▸ hJ P hP
  | cons a schedule ih =>
    intro s hs
    rcases List.mem_cons.mp hs with rfl | hs
    · exact hJ P hP
    · exact ih h.2 (hstep P a hP h.1) s hs

variable (hrefl : ∀ s, R s s) (htrans : ∀ {s t u}, R s t → R t u → R s u)
  (hstep : ∀ P a, I P → ok P a → I (P.act S a) ∧ R P.state (P.act S a).state)

include hrefl htrans hstep

/-- Every state is related to the first one. -/
theorem Throughout.states_from (h : Throughout S ok P schedule) (hP : I P) :
    ∀ s ∈ P.states S schedule, R P.state s := by
  induction schedule generalizing P with
  | nil =>
    intro s hs
    rw [Pool.states, List.mem_singleton] at hs
    exact hs ▸ hrefl P.state
  | cons a schedule ih =>
    intro s hs
    rcases List.mem_cons.mp hs with rfl | hs
    · exact hrefl P.state
    · obtain ⟨hinv, hmoves⟩ := hstep P a hP h.1
      exact htrans hmoves (ih h.2 hinv s hs)

/-- Every later state is related to every earlier one. -/
theorem Throughout.states_pairwise (h : Throughout S ok P schedule) (hP : I P) :
    (P.states S schedule).Pairwise R := by
  induction schedule generalizing P with
  | nil => exact List.pairwise_singleton R P.state
  | cons a schedule ih =>
    obtain ⟨hinv, hmoves⟩ := hstep P a hP h.1
    rw [Pool.states, List.pairwise_cons]
    refine ⟨?_, ih h.2 hinv⟩
    intro s hs
    exact htrans hmoves (h.2.states_from hrefl htrans hstep hinv s hs)

/-- Every command executes in a state that is related to the first one. -/
theorem Throughout.commands_from (h : Throughout S ok P schedule) (hP : I P) :
    ∀ entry ∈ P.commands S schedule, R P.state entry.2 := by
  induction schedule generalizing P with
  | nil => simp [Pool.commands]
  | cons a schedule ih =>
    obtain ⟨hinv, hmoves⟩ := hstep P a hP h.1
    intro entry hentry
    rcases List.mem_append.mp hentry with hhead | htail
    · obtain ⟨c, -, rfl⟩ := Option.map_eq_some_iff.mp (Option.mem_toList.mp hhead)
      exact hrefl P.state
    · exact htrans hmoves (ih h.2 hinv entry htail)

/-- A later command executes in a state that is related to the one that an earlier
command leaves. -/
theorem Throughout.commands_pairwise (h : Throughout S ok P schedule) (hP : I P) :
    (P.commands S schedule).Pairwise fun first second => R (exec first.1 first.2) second.2 := by
  induction schedule generalizing P with
  | nil => exact List.Pairwise.nil
  | cons a schedule ih =>
    obtain ⟨hinv, -⟩ := hstep P a hP h.1
    rw [Pool.commands, List.pairwise_append]
    refine ⟨?_, ih h.2 hinv, ?_⟩
    · cases P.command? a <;> simp
    · intro first hfirst second hsecond
      obtain ⟨c, hc, rfl⟩ := Option.map_eq_some_iff.mp (Option.mem_toList.mp hfirst)
      have hleft : exec c P.state = (P.act S a).state := (act_state S hc).symm
      rw [hleft]
      exact h.2.commands_from hrefl htrans hstep hinv second hsecond

omit hrefl htrans hstep in
/-- What every step keeps of the state holds where a command executes. -/
theorem Throughout.commands {J : σ → Prop} (h : Throughout S ok P schedule) (hP : I P)
    (hJ : ∀ P, I P → J P.state) (hkeeps : ∀ P a, I P → ok P a → I (P.act S a)) :
    ∀ entry ∈ P.commands S schedule, J entry.2 := by
  induction schedule generalizing P with
  | nil => simp [Pool.commands]
  | cons a schedule ih =>
    intro entry hentry
    rcases List.mem_append.mp hentry with hhead | htail
    · obtain ⟨c, -, rfl⟩ := Option.map_eq_some_iff.mp (Option.mem_toList.mp hhead)
      exact hJ P hP
    · exact ih h.2 (hkeeps P a hP h.1) entry htail

end Throughout

/-- What is shown of each command and each event of a system: if a request issues the
command and the condition holds, the invariant stays and the state moves along a relation. -/
structure Stepwise (κ σ ρ ι : Type) where
  issues : ι → κ → Prop
  inv : σ → Prop
  answers : ρ → Prop := fun _ => True
  cond : ι → κ → σ → Prop
  moves : σ → σ → Prop := fun _ _ => True

namespace Stepwise

/-- The proof obligations. -/
structure Sound (D : Stepwise κ σ ρ ι) : Prop where
  program : ∀ request, (S.program request).Issues D.inv D.answers (D.issues request)
  refl : ∀ s, D.moves s s
  trans : ∀ {s t u}, D.moves s t → D.moves t u → D.moves s u
  exec : ∀ request c s, D.issues request c → D.cond request c s → D.inv s →
    D.inv (exec c s) ∧ D.moves s (exec c s)
  environment : ∀ e s, D.inv s → D.inv (S.environment e s) ∧ D.moves s (S.environment e s)

/-- The state satisfies the invariant, and the programs in progress issue the commands of
their requests. -/
structure Inv (D : Stepwise κ σ ρ ι) (P : Pool κ σ ρ ε α ι) : Prop where
  state : D.inv P.state
  procs : ∀ entry ∈ P.procs, entry.2.Issues D.inv D.answers (D.issues entry.1)

/-- The next command meets the condition, and the reply is one that is considered. -/
def Admits (D : Stepwise κ σ ρ ι) (P : Pool κ σ ρ ε α ι) (a : Action ρ ι η) : Prop :=
  (∀ i reply, a = .advance i reply → D.answers reply) ∧
    ∀ step, P.step? a = some step → D.cond step.1 step.2 P.state

variable {S} {D : Stepwise κ σ ρ ι} {P : Pool κ σ ρ ε α ι} {schedule : List (Action ρ ι η)}

omit [Executes κ σ] in
theorem inv_idle {s : σ} (h : D.inv s) : D.Inv (idle s : Pool κ σ ρ ε α ι) :=
  ⟨h, fun _ he => absurd he List.not_mem_nil⟩

omit [Executes κ σ] in
/-- The next command of a program in progress is one that its request issues. -/
theorem Inv.issues (h : D.Inv P) {a : Action ρ ι η} {step : ι × κ}
    (hstep : P.step? a = some step) : D.issues step.1 step.2 := by
  cases a with
  | start request => simp [step?] at hstep
  | environment e => simp [step?] at hstep
  | advance i reply =>
    obtain ⟨entry, hget, hcommand⟩ := Option.bind_eq_some_iff.mp hstep
    obtain ⟨c, hnext, rfl⟩ := Option.map_eq_some_iff.mp hcommand
    have hissues := h.procs entry (List.mem_of_getElem? hget)
    cases hp : entry.2 with
    | call c' next =>
      rw [hp] at hissues hnext
      rw [Program.command?, Option.some.injEq] at hnext
      exact hnext ▸ hissues.1
    | pure a => simp [hp, Program.command?] at hnext
    | throw e => simp [hp, Program.command?] at hnext
    | ask next => simp [hp, Program.command?] at hnext

/-- One command of one program. -/
theorem Inv.step (h : D.Inv P) (hD : D.Sound S) {i : ℕ} {reply : ρ}
    {entry : ι × Program κ σ ρ ε α} (hget : P.procs[i]? = some entry)
    (hadmits : D.Admits P (.advance i reply : Action ρ ι η)) :
    D.inv (entry.2.after P.state) ∧ D.moves P.state (entry.2.after P.state) ∧
      (entry.2.next reply P.state).Issues D.inv D.answers (D.issues entry.1) := by
  have hissues := h.procs entry (List.mem_of_getElem? hget)
  cases hp : entry.2 with
  | pure a => exact ⟨h.state, hD.refl _, trivial⟩
  | throw e => exact ⟨h.state, hD.refl _, trivial⟩
  | ask next =>
    rw [hp] at hissues
    exact ⟨h.state, hD.refl _, hissues reply (hadmits.1 i reply rfl)⟩
  | call c next =>
    rw [hp] at hissues
    have hcond : D.cond entry.1 c P.state :=
      hadmits.2 (entry.1, c) (by simp [step?, hget, hp, Program.command?])
    obtain ⟨hinv, hmoves⟩ := hD.exec entry.1 c P.state hissues.1 hcond h.state
    exact ⟨hinv, hmoves, hissues.2 P.state h.state⟩

theorem Inv.act (h : D.Inv P) (hD : D.Sound S) {a : Action ρ ι η} (hadmits : D.Admits P a) :
    D.Inv (P.act S a) ∧ D.moves P.state (P.act S a).state := by
  cases a with
  | start request =>
    refine ⟨⟨h.state, ?_⟩, hD.refl _⟩
    intro entry hentry
    rcases List.mem_append.mp hentry with hold | hnew
    · exact h.procs entry hold
    · rw [List.mem_singleton.mp hnew]
      exact hD.program request
  | environment e =>
    obtain ⟨hinv, hmoves⟩ := hD.environment e P.state h.state
    exact ⟨⟨hinv, h.procs⟩, hmoves⟩
  | advance i reply =>
    rw [Pool.act]
    split
    · rename_i request p hget
      obtain ⟨hinv, hmoves, hnext⟩ := h.step hD hget hadmits
      refine ⟨⟨hinv, ?_⟩, hmoves⟩
      intro entry hentry
      rcases List.mem_or_eq_of_mem_set hentry with hold | rfl
      · exact h.procs entry hold
      · exact hnext
    · exact ⟨h, hD.refl _⟩

/-- A condition on every command of the history, and replies that are considered, are what
each step of the schedule is asked for. -/
theorem throughout_admits
    (hanswers : ∀ i reply, .advance i reply ∈ schedule → D.answers reply)
    (h : ∀ entry ∈ P.history S schedule, D.cond entry.1 entry.2.1 entry.2.2) :
    Throughout S D.Admits P schedule := by
  induction schedule generalizing P with
  | nil => trivial
  | cons a schedule ih =>
    rw [Pool.history, List.forall_mem_append] at h
    refine ⟨⟨?_, ?_⟩, ih ?_ h.2⟩
    · rintro i reply rfl
      exact hanswers i reply (List.mem_cons_self ..)
    · intro step hstep
      exact h.1 (step.1, step.2, P.state) (by simp [hstep])
    · intro i reply hmem
      exact hanswers i reply (List.mem_cons_of_mem _ hmem)

section Sound

variable (hD : D.Sound S) {s : σ} (hs : D.inv s)
  (hanswers : ∀ i reply, .advance i reply ∈ schedule → D.answers reply)
  (h : ∀ entry ∈ (idle s).history S schedule, D.cond entry.1 entry.2.1 entry.2.2)

include hD hs hanswers h

/-- The invariant holds in every state that the schedule passes. -/
theorem Sound.states : ∀ t ∈ (idle s).states S schedule, D.inv t :=
  (throughout_admits hanswers h).states (inv_idle hs) (fun _ hP => hP.state)
    fun _ _ hP hadmits => (hP.act hD hadmits).1

/-- Every later state is one to which the earlier ones may move. -/
theorem Sound.states_pairwise : ((idle s).states S schedule).Pairwise D.moves :=
  (throughout_admits hanswers h).states_pairwise hD.refl hD.trans
    (fun _ _ hP hadmits => hP.act hD hadmits) (inv_idle hs)

/-- A later command executes in a state to which the one that an earlier command leaves may
move. -/
theorem Sound.commands_pairwise :
    ((idle s).commands S schedule).Pairwise fun first second =>
      D.moves (Executes.exec first.1 first.2) second.2 :=
  (throughout_admits hanswers h).commands_pairwise hD.refl hD.trans
    (fun _ _ hP hadmits => hP.act hD hadmits) (inv_idle hs)

/-- Every command executes where the invariant holds. -/
theorem Sound.commands : ∀ entry ∈ (idle s).commands S schedule, D.inv entry.2 :=
  (throughout_admits hanswers h).commands (inv_idle hs) (fun _ hP => hP.state)
    fun _ _ hP hadmits => (hP.act hD hadmits).1

omit hs hanswers h in
theorem Sound.history_of_inv (hP : D.Inv P)
    (hadmits : Throughout S D.Admits P schedule) :
    ∀ entry ∈ P.history S schedule, D.issues entry.1 entry.2.1 ∧ D.inv entry.2.2 := by
  induction schedule generalizing P with
  | nil => simp [Pool.history]
  | cons a schedule ih =>
    intro entry hentry
    rcases List.mem_append.mp hentry with hhead | htail
    · obtain ⟨step, hstep, rfl⟩ := Option.map_eq_some_iff.mp (Option.mem_toList.mp hhead)
      exact ⟨hP.issues hstep, hP.state⟩
    · exact ih (hP.act hD hadmits.1).1 hadmits.2 entry htail

/-- Every command is one that its request issues, and executes where the invariant holds. -/
theorem Sound.history :
    ∀ entry ∈ (idle s).history S schedule, D.issues entry.1 entry.2.1 ∧ D.inv entry.2.2 :=
  hD.history_of_inv (inv_idle hs) (throughout_admits hanswers h)

end Sound
end Stepwise

theorem run_mem_states (P : Pool κ σ ρ ε α ι) (schedule : List (Action ρ ι η)) :
    (P.run S schedule).state ∈ P.states S schedule := by
  induction schedule generalizing P with
  | nil => exact List.mem_singleton_self _
  | cons a schedule ih => exact List.mem_cons_of_mem _ (ih (P.act S a))

/-- The states of a schedule are states of every longer one. -/
theorem states_append {P : Pool κ σ ρ ε α ι} {before : List (Action ρ ι η)}
    (after : List (Action ρ ι η)) {s : σ} (h : s ∈ P.states S before) :
    s ∈ P.states S (before ++ after) := by
  induction before generalizing P with
  | nil =>
    rw [states, List.mem_singleton] at h
    subst h
    cases after <;> simp [states]
  | cons a before ih =>
    rw [List.cons_append, states]
    rcases List.mem_cons.mp h with rfl | h
    · exact List.mem_cons_self ..
    · exact List.mem_cons_of_mem _ (ih h)

/-- A state in which a command of the schedule executes is one of its states. -/
theorem along_states (accepts : ι → Prop) (P : Pool κ σ ρ ε α ι)
    (schedule : List (Action ρ ι η)) (haccepts : ∀ r, .start r ∈ schedule → accepts r)
    (visited : σ → Prop) (hvisited : ∀ s ∈ P.states S schedule, visited s) :
    Along S accepts (fun _ s => visited s) (fun _ _ => True) P schedule := by
  induction schedule generalizing P with
  | nil => trivial
  | cons a schedule ih =>
    refine ⟨?_, fun _ _ => ?_, fun _ _ => trivial, ?_⟩
    · intro r hr
      exact haccepts r (hr ▸ List.mem_cons_self ..)
    · exact hvisited _ (List.mem_cons_self ..)
    · apply ih
      · intro r hr
        exact haccepts r (List.mem_cons_of_mem _ hr)
      · intro s hs
        exact hvisited s (List.mem_cons_of_mem _ hs)

theorem along_true (P : Pool κ σ ρ ε α ι) (schedule : List (Action ρ ι η)) :
    Along S (fun _ => True) (fun _ _ => True) (fun _ _ => True) P schedule :=
  along_states S _ P schedule (fun _ _ => trivial) _ fun _ _ => trivial

/-- What an invariant proof provides: an invariant of the state, a relation that
covers every step, and the postconditions of the requests. -/
structure Discipline (κ σ ρ ε α ι η : Type) where
  inv : σ → Prop
  moves : σ → σ → Prop
  accepts : ι → Prop
  allowed : κ → σ → Prop
  admits : η → σ → Prop
  /-- What a command promises on top of the invariant. -/
  promise : κ → σ → Prop
  post : ι → Except ε α → σ → Prop

namespace Discipline

/-- The contract under which each program of the pool runs. -/
def contract (D : Discipline κ σ ρ ε α ι η) : Contract κ σ ρ where
  rely := D.moves
  answers _ := True
  allowed c s := D.inv s ∧ D.allowed c s
  guarantee c s := D.inv (exec c s) ∧ D.moves s (exec c s) ∧ D.promise c s

/-- The proof obligations: others' steps compose and keep the postconditions,
and every request and every event of the environment keeps the discipline. -/
structure Sound (D : Discipline κ σ ρ ε α ι η) : Prop where
  refl : ∀ s, D.moves s s
  trans : ∀ {s t u}, D.moves s t → D.moves t u → D.moves s u
  stable : ∀ i r s t, D.post i r s → D.moves s t → D.post i r t
  program : ∀ i s, D.accepts i → D.inv s → (S.program i).Meets D.contract (D.post i) s
  environment : ∀ e s, D.inv s → D.admits e s →
    D.inv (S.environment e s) ∧ D.moves s (S.environment e s)

/-- The invariant of the pool: the state satisfies `inv` and every program in
progress keeps its contract from here on. -/
structure Inv (D : Discipline κ σ ρ ε α ι η) (P : Pool κ σ ρ ε α ι) : Prop where
  state : D.inv P.state
  procs : ∀ entry ∈ P.procs, entry.2.Meets D.contract (D.post entry.1) P.state

variable {S} {D : Discipline κ σ ρ ε α ι η}

theorem inv_idle {s : σ} (h : D.inv s) : D.Inv (idle s) :=
  ⟨h, fun _ he => absurd he List.not_mem_nil⟩

/-- One command of one program. -/
theorem Inv.step {P : Pool κ σ ρ ε α ι} (h : D.Inv P) (hS : D.Sound S) {request : ι}
    {p : Program κ σ ρ ε α} (hp : (request, p) ∈ P.procs) (reply : ρ)
    (hc : ∀ c, p.command? = some c → D.allowed c P.state) :
    D.inv (p.after P.state) ∧ D.moves P.state (p.after P.state) ∧
      (p.next reply P.state).Meets D.contract (D.post request) (p.after P.state) := by
  have hmeets : p.Meets D.contract (D.post request) P.state := h.procs _ hp
  cases p with
  | pure a => exact ⟨h.state, hS.refl _, hmeets⟩
  | throw e => exact ⟨h.state, hS.refl _, hmeets⟩
  | call c next =>
    obtain ⟨⟨hinv, hmoves, -⟩, hnext⟩ :=
      hmeets P.state (hS.refl _) ⟨h.state, hc c rfl⟩
    exact ⟨hinv, hmoves, hnext⟩
  | ask next => exact ⟨h.state, hS.refl _, hmeets reply P.state trivial (hS.refl _)⟩

theorem Inv.act {P : Pool κ σ ρ ε α ι} (h : D.Inv P) (hS : D.Sound S) (a : Action ρ ι η)
    (hr : ∀ request, a = .start request → D.accepts request)
    (hc : ∀ c, P.command? a = some c → D.allowed c P.state)
    (he : ∀ e, a = .environment e → D.admits e P.state) :
    D.Inv (P.act S a) ∧ D.moves P.state (P.act S a).state := by
  cases a with
  | start request =>
    refine ⟨⟨h.state, fun entry hentry => ?_⟩, hS.refl _⟩
    rcases List.mem_append.mp hentry with hold | hnew
    · exact h.procs entry hold
    · rw [List.mem_singleton.mp hnew]
      exact hS.program request P.state (hr request rfl) h.state
  | environment e =>
    obtain ⟨hinv, hmoves⟩ := hS.environment e P.state h.state (he e rfl)
    exact ⟨⟨hinv, fun entry hentry =>
      (h.procs entry hentry).stable hS.trans (hS.stable entry.1) hmoves⟩, hmoves⟩
  | advance i reply =>
    rw [Pool.act]
    split
    · rename_i request p hget
      have hp : (request, p) ∈ P.procs := List.mem_of_getElem? hget
      have hcommand : ∀ c, p.command? = some c → D.allowed c P.state := by
        intro c hpc
        exact hc c (by simp [command?, hget, hpc])
      obtain ⟨hinv, hmoves, hnext⟩ := h.step hS hp reply hcommand
      refine ⟨⟨hinv, fun entry hentry => ?_⟩, hmoves⟩
      rcases List.mem_or_eq_of_mem_set hentry with hold | rfl
      · exact (h.procs entry hold).stable hS.trans (hS.stable entry.1) hmoves
      · exact hnext
    · exact ⟨h, hS.refl _⟩

/-- The invariant holds after every schedule whose commands are allowed. -/
theorem Inv.run {P : Pool κ σ ρ ε α ι} (h : D.Inv P) (hS : D.Sound S)
    {schedule : List (Action ρ ι η)} (hrun : Along S D.accepts D.allowed D.admits P schedule) :
    D.Inv (P.run S schedule) ∧ D.moves P.state (P.run S schedule).state := by
  induction schedule generalizing P with
  | nil => exact ⟨h, hS.refl _⟩
  | cons a schedule ih =>
    obtain ⟨hr, hc, he, hrest⟩ := hrun
    obtain ⟨hact, hmoves⟩ := h.act hS a hr hc he
    obtain ⟨hlast, hmoves'⟩ := ih hact hrest
    exact ⟨hlast, hS.trans hmoves hmoves'⟩

/-- The next command of a program in progress keeps its promise. -/
theorem Inv.promise {P : Pool κ σ ρ ε α ι} (h : D.Inv P) (hS : D.Sound S)
    {a : Action ρ ι η} {c : κ} (hcommand : P.command? a = some c)
    (hc : D.allowed c P.state) : D.promise c P.state := by
  cases a with
  | start request => simp [command?] at hcommand
  | environment e => simp [command?] at hcommand
  | advance i reply =>
    cases hget : P.procs[i]? with
    | none => simp [command?, hget] at hcommand
    | some entry =>
      simp only [command?, hget, Option.bind_some] at hcommand
      have hmeets := h.procs entry (List.mem_of_getElem? hget)
      cases hp : entry.2 with
      | call c' next =>
        rw [hp, Program.command?, Option.some.injEq] at hcommand
        rw [hp] at hmeets
        subst hcommand
        exact (hmeets P.state (hS.refl _) ⟨h.state, hc⟩).1.2.2
      | pure a => simp [hp, Program.command?] at hcommand
      | throw e => simp [hp, Program.command?] at hcommand
      | ask next => simp [hp, Program.command?] at hcommand

/-- A program that has finished satisfies the postcondition of its request. -/
theorem Inv.finished {P : Pool κ σ ρ ε α ι} (h : D.Inv P) {request : ι}
    {p : Program κ σ ρ ε α} (hp : (request, p) ∈ P.procs) {r : Except ε α}
    (hr : p.result? = some r) : D.post request r P.state := by
  have hmeets := h.procs _ hp
  cases p with
  | pure a => cases hr; exact hmeets
  | throw e => cases hr; exact hmeets
  | call c next => cases hr
  | ask next => cases hr

end Discipline
end Pool
end AtomicProgram
