import Realmroot.Library.Promises

/-!
# Memory

A program may remember what it has done. What it remembers is a fact about the history of the run:
it holds of every longer history. In every run, then, the history at a command bears out what its
program remembers there.
-/

namespace AtomicProgram

/-- How commands, and what they find, change what is remembered, and what may be executed then. -/
structure Memory (κ σ φ : Type) where
  advance : φ → κ → σ → φ
  issues : φ → κ → Prop

namespace Program

variable {κ σ ρ ε α β φ : Type} {M : Memory κ σ φ}

/-- Every command is one that may be executed with what is remembered. -/
def Tracks (M : Memory κ σ φ) (post : α → φ → Prop) : φ → Program κ σ ρ ε α → Prop
  | phase, .pure a => post a phase
  | _, .throw _ => True
  | phase, .call c next =>
    M.issues phase c ∧ ∀ s, (next s).Tracks M post (M.advance phase c s)
  | phase, .ask next => ∀ r, (next r).Tracks M post phase

variable {post : α → φ → Prop} {p : Program κ σ ρ ε α} {phase : φ}

theorem Tracks.mono {post' : α → φ → Prop} (h : p.Tracks M post phase)
    (hpost : ∀ a phase, post a phase → post' a phase) : p.Tracks M post' phase := by
  induction p generalizing phase with
  | pure a => exact hpost a phase h
  | throw e => trivial
  | call c next ih => exact ⟨h.1, fun s => ih s (h.2 s)⟩
  | ask next ih => exact fun r => ih r (h r)

theorem Tracks.bind {post' : β → φ → Prop} {f : α → Program κ σ ρ ε β}
    (hp : p.Tracks M post phase) (hf : ∀ a phase, post a phase → (f a).Tracks M post' phase) :
    (p.bind f).Tracks M post' phase := by
  induction p generalizing phase with
  | pure a => exact hf a phase hp
  | throw e => trivial
  | call c next ih => exact ⟨hp.1, fun s => ih s (hp.2 s)⟩
  | ask next ih => exact fun r => ih r (hp r)

/-- A handler that tracks whatever is remembered. -/
theorem Tracks.tryCatch {handler : ε → Program κ σ ρ ε α} (hp : p.Tracks M post phase)
    (hhandler : ∀ e phase, (handler e).Tracks M post phase) :
    (p.tryCatch handler).Tracks M post phase := by
  induction p generalizing phase with
  | pure a => exact hp
  | throw e => exact hhandler e phase
  | call c next ih => exact ⟨hp.1, fun s => ih s (hp.2 s)⟩
  | ask next ih => exact fun r => ih r (hp r)

/-- Commands that leave alone what is remembered. -/
theorem Uses.tracks {P : κ → Prop} (h : p.Uses P) (hissues : ∀ c, P c → M.issues phase c)
    (hstays : ∀ c, P c → ∀ s, M.advance phase c s = phase) :
    p.Tracks M (fun _ later => later = phase) phase := by
  induction p with
  | pure a => rfl
  | throw e => trivial
  | ask next ih => exact fun r => ih r (h r)
  | call c next ih =>
    refine ⟨hissues c h.1, ?_⟩
    intro s
    rw [hstays c h.1 s]
    exact ih s (h.2 s)

end Program

namespace Pool

variable {κ σ ρ ε α ι η φ : Type} {M : Memory κ σ φ}

/-- What is remembered is borne out by the history, and stays so. -/
structure Remembers (M : Memory κ σ φ) (start : φ) (R : φ → List (ι × κ × σ) → Prop) : Prop where
  start : ∀ log, R start log
  others : ∀ phase log entry, R phase log → R phase (log ++ [entry])
  own : ∀ phase log request c s, M.issues phase c → R phase log →
    R (M.advance phase c s) (log ++ [(request, c, s)])

variable [Executes κ σ] {S : System κ σ ρ ε α ι η} {start : φ} {R : φ → List (ι × κ × σ) → Prop}
  {P : Pool κ σ ρ ε α ι} {schedule : List (Action ρ ι η)}

/-- Every program tracks something that the history bears out. -/
def Tracked (M : Memory κ σ φ) (R : φ → List (ι × κ × σ) → Prop) (log : List (ι × κ × σ))
    (P : Pool κ σ ρ ε α ι) : Prop :=
  ∀ entry ∈ P.procs, ∃ phase, entry.2.Tracks M (fun _ _ => True) phase ∧ R phase log

omit [Executes κ σ] in
theorem Tracked.step {log : List (ι × κ × σ)} (h : P.Tracked M R log) {a : Action ρ ι η}
    {step : ι × κ} (hstep : P.step? a = some step) :
    ∃ phase, M.issues phase step.2 ∧ R phase log := by
  cases a with
  | start request => cases hstep
  | environment e => cases hstep
  | advance i reply =>
    obtain ⟨⟨request, p⟩, hget, hcommand⟩ := Option.bind_eq_some_iff.mp hstep
    obtain ⟨c, hc, rfl⟩ := Option.map_eq_some_iff.mp hcommand
    obtain ⟨phase, htracks, hremembers⟩ := h _ (List.mem_of_getElem? hget)
    cases p with
    | call c' next =>
      cases hc
      exact ⟨phase, htracks.1, hremembers⟩
    | pure a => cases hc
    | throw e => cases hc
    | ask next => cases hc

/-- The history after one action. -/
def logAfter (P : Pool κ σ ρ ε α ι) (log : List (ι × κ × σ)) (a : Action ρ ι η) :
    List (ι × κ × σ) :=
  log ++ ((P.step? a).map fun step => (step.1, step.2, P.state)).toList

theorem Tracked.act {log : List (ι × κ × σ)} (h : P.Tracked M R log) (hR : Remembers M start R)
    (hprogram : ∀ request, (S.program request).Tracks M (fun _ _ => True) start)
    (a : Action ρ ι η) : (P.act S a).Tracked M R (P.logAfter log a) := by
  have hlater : ∀ phase, R phase log → R phase (P.logAfter log a) := by
    intro phase hremembers
    unfold logAfter
    cases P.step? a with
    | none => simpa using hremembers
    | some step => exact hR.others phase log _ hremembers
  have hothers : ∀ entry ∈ P.procs, ∃ phase,
      entry.2.Tracks M (fun _ _ => True) phase ∧ R phase (P.logAfter log a) := by
    intro entry hentry
    obtain ⟨phase, htracks, hremembers⟩ := h entry hentry
    exact ⟨phase, htracks, hlater phase hremembers⟩
  cases a with
  | start request =>
    intro entry hentry
    rcases List.mem_append.mp hentry with hold | hnew
    · exact hothers entry hold
    · rw [List.mem_singleton.mp hnew]
      exact ⟨start, hprogram request, hR.start _⟩
  | environment e => exact hothers
  | advance i reply =>
    intro entry hentry
    rw [Pool.act] at hentry
    split at hentry
    · rename_i request p hget
      rcases List.mem_or_eq_of_mem_set hentry with hold | rfl
      · exact hothers entry hold
      · obtain ⟨phase, htracks, hremembers⟩ := h _ (List.mem_of_getElem? hget)
        cases p with
        | pure a => exact ⟨phase, htracks, hlater phase hremembers⟩
        | throw e => exact ⟨phase, htracks, hlater phase hremembers⟩
        | ask next => exact ⟨phase, htracks reply, hlater phase hremembers⟩
        | call c next =>
          have hlog : P.logAfter log (.advance i reply : Action ρ ι η) =
              log ++ [(request, c, P.state)] := by
            simp [logAfter, step?, hget, Program.command?]
          rw [hlog]
          exact ⟨_, htracks.2 P.state, hR.own phase log request c P.state htracks.1 hremembers⟩
    · exact hothers entry hentry

/-- What holds of a history and the state it ends in, and is kept by every event and by every
command of a program that remembers what the history bears out, holds after every schedule. -/
theorem Remembers.recorded (hR : Remembers M start R)
    (hprogram : ∀ request, (S.program request).Tracks M (fun _ _ => True) start)
    {I : List (ι × κ × σ) → σ → Prop}
    (hexec : ∀ log phase request c s, M.issues phase c → R phase log → I log s →
      I (log ++ [(request, c, s)]) (exec c s))
    (henvironment : ∀ log e s, I log s → I log (S.environment e s))
    {s : σ} (hstart : I [] s) (schedule : List (Action ρ ι η)) :
    I ((idle s).history S schedule) ((idle s).run S schedule).state := by
  have hrun : ∀ (P : Pool κ σ ρ ε α ι) log, P.Tracked M R log → I log P.state →
      I (log ++ P.history S schedule) (P.run S schedule).state := by
    clear hstart
    induction schedule with
    | nil =>
      intro P log _ hI
      simpa [Pool.history] using hI
    | cons a schedule ih =>
      intro P log htracked hI
      rw [Pool.history, ← List.append_assoc, run_cons]
      apply ih (P.act S a) (P.logAfter log a) (htracked.act hR hprogram a)
      cases hstep : P.step? a with
      | some step =>
        obtain ⟨phase, hissues, hremembers⟩ := htracked.step hstep
        have hlog : P.logAfter log a = log ++ [(step.1, step.2, P.state)] := by
          simp [logAfter, hstep]
        rw [hlog, act_state S (step?_command hstep)]
        exact hexec log phase step.1 step.2 P.state hissues hremembers hI
      | none =>
        have hlog : P.logAfter log a = log := by simp [logAfter, hstep]
        rw [hlog]
        cases a with
        | start request => exact hI
        | environment e => exact henvironment log e P.state hI
        | advance i reply =>
          have hcommand : P.command? (.advance i reply : Action ρ ι η) = none := by
            cases hget : P.procs[i]? with
            | none => simp [command?, hget]
            | some entry =>
              have hnone : entry.2.command? = none := by simpa [step?, hget] using hstep
              simp [command?, hget, hnone]
          rw [act_state_of_none hcommand (by simp)]
          exact hI
  have hidle : (idle s : Pool κ σ ρ ε α ι).Tracked M R [] := by
    intro entry hentry
    cases hentry
  simpa using hrun (idle s) [] hidle hstart

end Pool
end AtomicProgram
