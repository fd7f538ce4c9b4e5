import Realmroot.Library.Pool

/-!
# Promises

The programs of a system promise something of each command that they execute, each program
by its own request, and rely on how the others move the state. What a command changes is then
argued from its promise, once for each command, and never from the program that issues it.
A property of the history of a run follows by induction on the run.
-/

namespace AtomicProgram

namespace Program

variable {κ σ ρ ε α : Type} {inv : σ → Prop} {answers : ρ → Prop} {P : κ → Prop}
  {p : Program κ σ ρ ε α}

theorem Issues.tryCatch {handler : ε → Program κ σ ρ ε α} (hp : p.Issues inv answers P)
    (hhandler : ∀ e, (handler e).Issues inv answers P) :
    (p.tryCatch handler).Issues inv answers P := by
  induction p with
  | pure a => trivial
  | throw e => exact hhandler e
  | call c next ih => exact ⟨hp.1, fun s hs => ih s (hp.2 s hs)⟩
  | ask next ih => exact fun r hr => ih r (hp r hr)

/-- A program of commands that are promised in every state, when nothing is asked of its end. -/
theorem Issues.meets [Executes κ σ] {C : Contract κ σ ρ} {post : Except ε α → σ → Prop}
    (hp : p.Issues (fun _ => True) C.answers P)
    (hguarantee : ∀ c, P c → ∀ s, C.allowed c s → C.guarantee c s)
    (hpost : ∀ r s, post r s) (s : σ) : p.Meets C post s := by
  induction p generalizing s with
  | pure a => exact hpost _ s
  | throw e => exact hpost _ s
  | call c next ih =>
    intro t _ hallowed
    exact ⟨hguarantee c hp.1 t hallowed, ih t (hp.2 t trivial) _⟩
  | ask next ih => exact fun r t hr _ => ih r (hp r hr) t

end Program

namespace Pool

variable {κ σ ρ ε α ι η : Type} [Executes κ σ]

/-- `cond`: the commands that are considered. `promise`: what a program of the request makes
sure of, where a considered command executes. `ends`: what holds at the moment at which a
program of the request ends. `post`: what remains of it. -/
structure Promises (κ σ ρ ε α ι : Type) where
  inv : σ → Prop
  moves : σ → σ → Prop
  answers : ρ → Prop := fun _ => True
  cond : ι → κ → σ → Prop
  promise : ι → κ → σ → Prop
  post : ι → Except ε α → σ → Prop
  ends : ι → Except ε α → σ → Prop := post

/-- The calls that end in a schedule, each with its request, its result and the state in which
it ends. -/
def ending? (P : Pool κ σ ρ ε α ι) : Action ρ ι η → Option (ι × Except ε α × σ)
  | .advance i reply =>
    (P.procs[i]?).bind fun entry =>
      match entry.2.result? with
      | some _ => none
      | none => (entry.2.next reply P.state).result?.map fun r =>
        (entry.1, r, entry.2.after P.state)
  | _ => none

def endings (S : System κ σ ρ ε α ι η) :
    Pool κ σ ρ ε α ι → List (Action ρ ι η) → List (ι × Except ε α × σ)
  | _, [] => []
  | P, a :: schedule => (P.ending? a).toList ++ endings S (P.act S a) schedule

namespace Promises

variable (S : System κ σ ρ ε α ι η)

/-- The contract of the programs of a request. -/
def contract (D : Promises κ σ ρ ε α ι) (request : ι) : Contract κ σ ρ where
  rely := D.moves
  answers := D.answers
  allowed c s := D.inv s ∧ D.cond request c s
  guarantee := D.promise request

/-- The proof obligations. -/
structure Sound (D : Promises κ σ ρ ε α ι) : Prop where
  refl : ∀ s, D.moves s s
  trans : ∀ {s t u}, D.moves s t → D.moves t u → D.moves s u
  stable : ∀ request r s t, D.post request r s → D.moves s t → D.post request r t
  remains : ∀ request r s, D.ends request r s → D.post request r s := by exact fun _ _ _ h => h
  program : ∀ request s, D.inv s →
    (S.program request).Meets (D.contract request) (D.ends request) s
  exec : ∀ request c s, D.inv s → D.cond request c s → D.promise request c s →
    D.inv (exec c s) ∧ D.moves s (exec c s)
  environment : ∀ e s, D.inv s → D.inv (S.environment e s) ∧ D.moves s (S.environment e s)

/-- A program in progress keeps its contract; of one that has ended, its postcondition
remains. -/
def Keeps (D : Promises κ σ ρ ε α ι) (request : ι) : Program κ σ ρ ε α → σ → Prop
  | .pure a, s => D.post request (.ok a) s
  | .throw e, s => D.post request (.error e) s
  | p, s => p.Meets (D.contract request) (D.ends request) s

/-- The state satisfies the invariant, and the programs keep their contracts. -/
structure Inv (D : Promises κ σ ρ ε α ι) (P : Pool κ σ ρ ε α ι) : Prop where
  state : D.inv P.state
  procs : ∀ entry ∈ P.procs, D.Keeps entry.1 entry.2 P.state

/-- What is asked of the steps of a schedule. -/
def steps (D : Promises κ σ ρ ε α ι) : Stepwise κ σ ρ ι where
  issues _ _ := True
  inv := D.inv
  answers := D.answers
  cond := D.cond
  moves := D.moves

variable {S} {D : Promises κ σ ρ ε α ι} {P : Pool κ σ ρ ε α ι} {schedule : List (Action ρ ι η)}

theorem inv_idle {s : σ} (h : D.inv s) : D.Inv (idle s : Pool κ σ ρ ε α ι) := by
  refine ⟨h, ?_⟩
  intro entry hentry
  cases hentry

theorem Sound.keeps (hD : D.Sound S) {request : ι} {p : Program κ σ ρ ε α} {s : σ}
    (h : p.Meets (D.contract request) (D.ends request) s) : D.Keeps request p s := by
  cases p with
  | pure a => exact hD.remains request _ s h
  | throw e => exact hD.remains request _ s h
  | call c next => exact h
  | ask next => exact h

/-- Others' steps leave a program what is known of it. -/
theorem Keeps.moved (hD : D.Sound S) {request : ι} {p : Program κ σ ρ ε α} {s t : σ}
    (h : D.Keeps request p s) (hst : D.moves s t) : D.Keeps request p t := by
  cases p with
  | pure a => exact hD.stable request _ s t h hst
  | throw e => exact hD.stable request _ s t h hst
  | call c next => exact fun u htu hc => h u (hD.trans hst htu) hc
  | ask next => exact fun r u hr htu => h r u hr (hD.trans hst htu)

/-- The next command of a program in progress is promised. -/
theorem Inv.promise (h : D.Inv P) (hD : D.Sound S) {a : Action ρ ι η} {step : ι × κ}
    (hstep : P.step? a = some step) (hcond : D.cond step.1 step.2 P.state) :
    D.promise step.1 step.2 P.state := by
  cases a with
  | start request => cases hstep
  | environment e => cases hstep
  | advance i reply =>
    obtain ⟨entry, hget, hcommand⟩ := Option.bind_eq_some_iff.mp hstep
    obtain ⟨c, hc, rfl⟩ := Option.map_eq_some_iff.mp hcommand
    have hkeeps := h.procs entry (List.mem_of_getElem? hget)
    cases hp : entry.2 with
    | call c' next =>
      rw [hp, Program.command?, Option.some.injEq] at hc
      subst hc
      rw [hp] at hkeeps
      exact (hkeeps P.state (hD.refl _) ⟨h.state, hcond⟩).1
    | pure a => simp [hp, Program.command?] at hc
    | throw e => simp [hp, Program.command?] at hc
    | ask next => simp [hp, Program.command?] at hc

/-- One step of a program in progress. -/
theorem Inv.next (h : D.Inv P) (hD : D.Sound S) {i : ℕ} {reply : ρ}
    {entry : ι × Program κ σ ρ ε α} (hget : P.procs[i]? = some entry)
    (hadmits : D.steps.Admits P (.advance i reply : Action ρ ι η))
    (hrunning : entry.2.result? = none) :
    D.inv (entry.2.after P.state) ∧ D.moves P.state (entry.2.after P.state) ∧
      (entry.2.next reply P.state).Meets (D.contract entry.1) (D.ends entry.1)
        (entry.2.after P.state) := by
  have hkeeps := h.procs entry (List.mem_of_getElem? hget)
  cases hp : entry.2 with
  | pure a => simp [hp, Program.result?] at hrunning
  | throw e => simp [hp, Program.result?] at hrunning
  | ask next =>
    rw [hp] at hkeeps
    have hreply := hadmits.1 i reply rfl
    exact ⟨h.state, hD.refl _, hkeeps reply P.state hreply (hD.refl _)⟩
  | call c next =>
    have hstep : P.step? (.advance i reply : Action ρ ι η) = some (entry.1, c) := by
      simp [step?, hget, hp, Program.command?]
    have hcond := hadmits.2 (entry.1, c) hstep
    have hpromise := h.promise hD hstep hcond
    obtain ⟨hinv, hmoves⟩ := hD.exec entry.1 c P.state h.state hcond hpromise
    rw [hp] at hkeeps
    exact ⟨hinv, hmoves, (hkeeps P.state (hD.refl _) ⟨h.state, hcond⟩).2⟩

/-- One step of one program. -/
theorem Inv.step (h : D.Inv P) (hD : D.Sound S) {i : ℕ} {reply : ρ}
    {entry : ι × Program κ σ ρ ε α} (hget : P.procs[i]? = some entry)
    (hadmits : D.steps.Admits P (.advance i reply : Action ρ ι η)) :
    D.inv (entry.2.after P.state) ∧ D.moves P.state (entry.2.after P.state) ∧
      D.Keeps entry.1 (entry.2.next reply P.state) (entry.2.after P.state) := by
  have hkeeps := h.procs entry (List.mem_of_getElem? hget)
  have hrunning : entry.2.result? = none →
      D.inv (entry.2.after P.state) ∧ D.moves P.state (entry.2.after P.state) ∧
        D.Keeps entry.1 (entry.2.next reply P.state) (entry.2.after P.state) := by
    intro hnone
    obtain ⟨hinv, hmoves, hnext⟩ := h.next hD hget hadmits hnone
    exact ⟨hinv, hmoves, hD.keeps hnext⟩
  cases hp : entry.2 with
  | pure a =>
    rw [hp] at hkeeps
    exact ⟨h.state, hD.refl _, hkeeps⟩
  | throw e =>
    rw [hp] at hkeeps
    exact ⟨h.state, hD.refl _, hkeeps⟩
  | ask next => exact hp ▸ hrunning (by rw [hp, Program.result?])
  | call c next => exact hp ▸ hrunning (by rw [hp, Program.result?])

theorem Inv.act (h : D.Inv P) (hD : D.Sound S) {a : Action ρ ι η}
    (hadmits : D.steps.Admits P a) :
    D.Inv (P.act S a) ∧ D.moves P.state (P.act S a).state := by
  have hmoved : ∀ {t : σ}, D.moves P.state t → ∀ entry ∈ P.procs, D.Keeps entry.1 entry.2 t := by
    intro t ht entry hentry
    exact (h.procs entry hentry).moved hD ht
  cases a with
  | start request =>
    refine ⟨⟨h.state, ?_⟩, hD.refl _⟩
    intro entry hentry
    rcases List.mem_append.mp hentry with hold | hnew
    · exact h.procs entry hold
    · rw [List.mem_singleton.mp hnew]
      exact hD.keeps (hD.program request P.state h.state)
  | environment e =>
    obtain ⟨hinv, hmoves⟩ := hD.environment e P.state h.state
    exact ⟨⟨hinv, hmoved hmoves⟩, hmoves⟩
  | advance i reply =>
    rw [Pool.act]
    split
    · rename_i request p hget
      obtain ⟨hinv, hmoves, hnext⟩ := h.step hD hget hadmits
      refine ⟨⟨hinv, ?_⟩, hmoves⟩
      intro entry hentry
      rcases List.mem_or_eq_of_mem_set hentry with hold | rfl
      · exact hmoved hmoves entry hold
      · exact hnext
    · exact ⟨h, hD.refl _⟩

/-- A program that has finished satisfies the postcondition of its request. -/
theorem Inv.finished (h : D.Inv P) {request : ι} {p : Program κ σ ρ ε α}
    (hp : (request, p) ∈ P.procs) {r : Except ε α} (hr : p.result? = some r) :
    D.post request r P.state := by
  have hkeeps := h.procs _ hp
  cases p with
  | pure a => cases hr; exact hkeeps
  | throw e => cases hr; exact hkeeps
  | call c next => cases hr
  | ask next => cases hr

/-- A call that ends does so where its request says. -/
theorem Inv.ending (h : D.Inv P) (hD : D.Sound S) {a : Action ρ ι η}
    (hadmits : D.steps.Admits P a) {entry : ι × Except ε α × σ}
    (hending : P.ending? a = some entry) : D.ends entry.1 entry.2.1 entry.2.2 := by
  cases a with
  | start request => cases hending
  | environment e => cases hending
  | advance i reply =>
    obtain ⟨proc, hget, hproc⟩ := Option.bind_eq_some_iff.mp hending
    cases hrunning : proc.2.result? with
    | some r => simp [hrunning] at hproc
    | none =>
      simp only [hrunning, Option.map_eq_some_iff] at hproc
      obtain ⟨r, hr, rfl⟩ := hproc
      obtain ⟨-, -, hmeets⟩ := h.next hD hget hadmits hrunning
      cases hnext : proc.2.next reply P.state with
      | pure a =>
        rw [hnext, Program.result?, Option.some.injEq] at hr
        rw [hnext] at hmeets
        exact hr ▸ hmeets
      | throw e =>
        rw [hnext, Program.result?, Option.some.injEq] at hr
        rw [hnext] at hmeets
        exact hr ▸ hmeets
      | call c next => simp [hnext, Program.result?] at hr
      | ask next => simp [hnext, Program.result?] at hr

/-- A call ends in the state that its last step leaves. -/
theorem ending?_state {a : Action ρ ι η} {entry : ι × Except ε α × σ}
    (h : P.ending? a = some entry) : (P.act S a).state = entry.2.2 := by
  cases a with
  | start request => cases h
  | environment e => cases h
  | advance i reply =>
    obtain ⟨proc, hget, hproc⟩ := Option.bind_eq_some_iff.mp h
    cases hrunning : proc.2.result? with
    | some r => simp [hrunning] at hproc
    | none =>
      simp only [hrunning, Option.map_eq_some_iff] at hproc
      obtain ⟨r, -, rfl⟩ := hproc
      simp [act, hget]

/-! ## Runs -/

/-- The invariant holds where a first part of the schedule ends, and the rest of the schedule is
admitted from there. -/
theorem Inv.reaches (hP : D.Inv P) (hD : D.Sound S) {before after : List (Action ρ ι η)}
    (h : Throughout S D.steps.Admits P (before ++ after)) :
    D.Inv (P.run S before) ∧ Throughout S D.steps.Admits (P.run S before) after := by
  induction before generalizing P with
  | nil => exact ⟨hP, h⟩
  | cons a before ih =>
    rw [run_cons]
    exact ih (hP.act hD h.1).1 h.2

/-- What holds of a history and the state it ends in, and is kept by every promised command
and every event, holds after every schedule. -/
theorem Inv.recorded (hP : D.Inv P) (hD : D.Sound S)
    (hadmits : Throughout S D.steps.Admits P schedule) {I : List (ι × κ × σ) → σ → Prop}
    (hexec : ∀ log request c s, D.inv s → D.cond request c s → D.promise request c s →
      I log s → I (log ++ [(request, c, s)]) (exec c s))
    (henvironment : ∀ log e s, D.inv s → I log s → I log (S.environment e s))
    (log : List (ι × κ × σ)) (hI : I log P.state) :
    D.Inv (P.run S schedule) ∧
      I (log ++ P.history S schedule) (P.run S schedule).state := by
  induction schedule generalizing P log with
  | nil =>
    rw [Pool.history, List.append_nil]
    exact ⟨hP, hI⟩
  | cons a schedule ih =>
    have hnext := (hP.act hD hadmits.1).1
    rw [Pool.history, ← List.append_assoc, run_cons]
    apply ih hnext hadmits.2 _
    cases hstep : P.step? a with
    | some step =>
      have hcond := hadmits.1.2 step hstep
      have hpromise := hP.promise hD hstep hcond
      rw [act_state S (step?_command hstep)]
      exact hexec log step.1 step.2 P.state hP.state hcond hpromise hI
    | none =>
      simp only [Option.map_none, Option.toList_none, List.append_nil]
      cases a with
      | start request => exact hI
      | environment e => exact henvironment log e P.state hP.state hI
      | advance i reply =>
        have hcommand : P.command? (.advance i reply : Action ρ ι η) = none := by
          cases hget : P.procs[i]? with
          | none => simp [command?, hget]
          | some entry =>
            simp only [step?, hget, Option.bind_some, Option.map_eq_none_iff] at hstep
            simp [command?, hget, hstep]
        rw [act_state_of_none hcommand (by simp)]
        exact hI

section Sound

variable (hD : D.Sound S) {s : σ} (hs : D.inv s)
  (hanswers : ∀ i reply, .advance i reply ∈ schedule → D.answers reply)
  (h : ∀ entry ∈ (idle s).history S schedule, D.cond entry.1 entry.2.1 entry.2.2)

include hD hs hanswers h

theorem Sound.run : D.Inv ((idle s).run S schedule) :=
  ((inv_idle hs).recorded hD (Stepwise.throughout_admits hanswers h) (I := fun _ _ => True)
    (fun _ _ _ _ _ _ _ _ => trivial) (fun _ _ _ _ _ => trivial) [] trivial).1

/-- Every call that ends in the schedule does so where its request says. -/
theorem Sound.endings :
    ∀ entry ∈ (idle s).endings S schedule, D.ends entry.1 entry.2.1 entry.2.2 := by
  have hall : ∀ P : Pool κ σ ρ ε α ι, D.Inv P → Throughout S D.steps.Admits P schedule →
      ∀ entry ∈ P.endings S schedule, D.ends entry.1 entry.2.1 entry.2.2 := by
    clear hanswers h hs
    induction schedule with
    | nil => simp [Pool.endings]
    | cons a schedule ih =>
      intro P hP hadmits entry hentry
      rcases List.mem_append.mp hentry with hhead | htail
      · exact hP.ending hD hadmits.1 (Option.mem_toList.mp hhead)
      · exact ih (P.act S a) (hP.act hD hadmits.1).1 hadmits.2 entry htail
  exact hall _ (inv_idle hs) (Stepwise.throughout_admits hanswers h)

/-- Every command is promised by its request. -/
theorem Sound.history :
    ∀ entry ∈ (idle s).history S schedule,
      D.inv entry.2.2 ∧ D.promise entry.1 entry.2.1 entry.2.2 := by
  have hall : ∀ P : Pool κ σ ρ ε α ι, D.Inv P → Throughout S D.steps.Admits P schedule →
      ∀ entry ∈ P.history S schedule, D.inv entry.2.2 ∧ D.promise entry.1 entry.2.1 entry.2.2 := by
    clear hanswers h hs
    induction schedule with
    | nil => simp [Pool.history]
    | cons a schedule ih =>
      intro P hP hadmits entry hentry
      rcases List.mem_append.mp hentry with hhead | htail
      · obtain ⟨step, hstep, rfl⟩ := Option.map_eq_some_iff.mp (Option.mem_toList.mp hhead)
        have hcond := hadmits.1.2 step hstep
        exact ⟨hP.state, hP.promise hD hstep hcond⟩
      · exact ih (P.act S a) (hP.act hD hadmits.1).1 hadmits.2 entry htail
  exact hall _ (inv_idle hs) (Stepwise.throughout_admits hanswers h)

/-- The invariant holds in every state that the schedule passes. -/
theorem Sound.states : ∀ t ∈ (idle s).states S schedule, D.inv t :=
  (Stepwise.throughout_admits hanswers h).states (inv_idle hs) (fun _ hP => hP.state)
    fun _ _ hP hadmits => (hP.act hD hadmits).1

/-- What the history of a run says of the state that it reaches. -/
theorem Sound.recorded {I : List (ι × κ × σ) → σ → Prop} (hI : I [] s)
    (hexec : ∀ log request c t, D.inv t → D.cond request c t → D.promise request c t →
      I log t → I (log ++ [(request, c, t)]) (Executes.exec c t))
    (henvironment : ∀ log e t, D.inv t → I log t → I log (S.environment e t)) :
    I ((idle s).history S schedule) ((idle s).run S schedule).state :=
  ((inv_idle hs).recorded hD (Stepwise.throughout_admits hanswers h) hexec henvironment [] hI).2

end Sound
end Promises

/-! ## Prefixes -/

variable (S : System κ σ ρ ε α ι η)

/-- A state of a schedule is the one that some first part of it reaches. -/
theorem exists_prefix {P : Pool κ σ ρ ε α ι} {schedule : List (Action ρ ι η)} {t : σ}
    (h : t ∈ P.states S schedule) :
    ∃ before after, schedule = before ++ after ∧ t = (P.run S before).state := by
  induction schedule generalizing P with
  | nil =>
    rw [states, List.mem_singleton] at h
    exact ⟨[], [], rfl, h⟩
  | cons a schedule ih =>
    rcases List.mem_cons.mp h with rfl | h
    · exact ⟨[], a :: schedule, rfl, rfl⟩
    · obtain ⟨before, after, hsplit, ht⟩ := ih h
      exact ⟨a :: before, after, by rw [hsplit, List.cons_append], ht⟩

theorem history_append (P : Pool κ σ ρ ε α ι) (before after : List (Action ρ ι η)) :
    P.history S (before ++ after) =
      P.history S before ++ (P.run S before).history S after := by
  induction before generalizing P with
  | nil => rfl
  | cons a before ih =>
    rw [List.cons_append, history, history, ih, List.append_assoc, run_cons]

/-- A command executes in one of the states of its schedule. -/
theorem history_mem_states {P : Pool κ σ ρ ε α ι} {schedule : List (Action ρ ι η)}
    {entry : ι × κ × σ} (h : entry ∈ P.history S schedule) :
    entry.2.2 ∈ P.states S schedule := by
  induction schedule generalizing P with
  | nil => cases h
  | cons a schedule ih =>
    rcases List.mem_append.mp h with hhead | htail
    · obtain ⟨step, -, rfl⟩ := Option.map_eq_some_iff.mp (Option.mem_toList.mp hhead)
      exact List.mem_cons_self ..
    · exact List.mem_cons_of_mem _ (ih htail)

end Pool
end AtomicProgram
