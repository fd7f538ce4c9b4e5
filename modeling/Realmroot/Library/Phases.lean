import Realmroot.Library.Pool

/-!
# Phases

What a program has already done may matter for what a command of it means. A phase
is what is remembered of the commands that a program has executed; in a phased
program every command carries the phase in which it executes. Nothing else changes.
-/

namespace AtomicProgram

variable {κ σ ρ ε α β φ ι η : Type}

/-- A phased command does what the command does. -/
instance [Executes κ σ] : Executes (κ × φ) σ where
  exec c s := exec c.1 s

@[simp] theorem exec_phased [Executes κ σ] (c : κ × φ) (s : σ) :
    exec c s = exec c.1 s := rfl

/-- How commands move the phase on, what is issued in each phase, what holds of the states
that are read, and which replies are considered. -/
structure Phases (κ σ ρ φ : Type) where
  advance : φ → κ → φ
  issues : φ → κ → Prop
  inv : σ → Prop
  answers : ρ → Prop

namespace Program

/-- The program whose commands carry the phases in which they execute. -/
def phased (advance : φ → κ → φ) : φ → Program κ σ ρ ε α → Program (κ × φ) σ ρ ε α
  | _, .pure a => .pure a
  | _, .throw e => .throw e
  | phase, .call c next => .call (c, phase) fun s => (next s).phased advance (advance phase c)
  | phase, .ask next => .ask fun r => (next r).phased advance phase

/-- Every command is one that its phase issues, and the value that the program returns fits the
phase in which it does. -/
def Conforms (D : Phases κ σ ρ φ) (post : α → φ → Prop) : φ → Program κ σ ρ ε α → Prop
  | phase, .pure a => post a phase
  | _, .throw _ => True
  | phase, .call c next =>
    D.issues phase c ∧ ∀ s, D.inv s → (next s).Conforms D post (D.advance phase c)
  | phase, .ask next => ∀ r, D.answers r → (next r).Conforms D post phase

variable {D : Phases κ σ ρ φ} {post : α → φ → Prop} {p : Program κ σ ρ ε α} {phase : φ}

/-- A program that conforms issues, when it is phased, what the phases issue. -/
theorem Conforms.issues (h : p.Conforms D post phase) :
    (p.phased D.advance phase).Issues D.inv D.answers fun c => D.issues c.2 c.1 := by
  induction p generalizing phase with
  | pure a => trivial
  | throw e => trivial
  | call c next ih => exact ⟨h.1, fun s hs => ih s (h.2 s hs)⟩
  | ask next ih => exact fun r hr => ih r (h r hr)

theorem Conforms.mono {post' : α → φ → Prop} (h : p.Conforms D post phase)
    (hpost : ∀ a phase, post a phase → post' a phase) : p.Conforms D post' phase := by
  induction p generalizing phase with
  | pure a => exact hpost a phase h
  | throw e => trivial
  | call c next ih => exact ⟨h.1, fun s hs => ih s (h.2 s hs)⟩
  | ask next ih => exact fun r hr => ih r (h r hr)

/-- A sequence conforms when its second half does, wherever the first one may end. -/
theorem Conforms.bind {post' : β → φ → Prop} {f : α → Program κ σ ρ ε β}
    (hp : p.Conforms D post phase) (hf : ∀ a phase, post a phase → (f a).Conforms D post' phase) :
    (p.bind f).Conforms D post' phase := by
  induction p generalizing phase with
  | pure a => exact hf a phase hp
  | throw e => trivial
  | call c next ih => exact ⟨hp.1, fun s hs => ih s (hp.2 s hs)⟩
  | ask next ih => exact fun r hr => ih r (hp r hr)

theorem Conforms.discard (hp : p.Conforms D post phase) :
    p.discard.Conforms D (fun _ _ => True) phase :=
  hp.bind fun _ _ _ => trivial

/-- A handler that conforms in every phase. -/
theorem Conforms.tryCatch {handler : ε → Program κ σ ρ ε α} (hp : p.Conforms D post phase)
    (hhandler : ∀ e phase, (handler e).Conforms D post phase) :
    (p.tryCatch handler).Conforms D post phase := by
  induction p generalizing phase with
  | pure a => exact hp
  | throw e => exact hhandler e phase
  | call c next ih => exact ⟨hp.1, fun s hs => ih s (hp.2 s hs)⟩
  | ask next ih => exact fun r hr => ih r (hp r hr)

/-- A loop whose rounds keep the phase. -/
theorem Conforms.forEach {bs : List β} {f : β → Program κ σ ρ ε Unit} {keeps : φ → Prop}
    (hphase : keeps phase)
    (hf : ∀ b phase, keeps phase → (f b).Conforms D (fun _ => keeps) phase) :
    (Program.forEach bs f).Conforms D (fun _ => keeps) phase := by
  induction bs generalizing phase with
  | nil => exact hphase
  | cons b bs ih => exact (hf b phase hphase).bind fun _ _ hkeeps => ih hkeeps

/-- A program that never moves the phase on. -/
theorem Uses.conforms {P : κ → Prop} (h : p.Uses P)
    (hissues : ∀ c, P c → D.issues phase c) (hstays : ∀ c, P c → D.advance phase c = phase) :
    p.Conforms D (fun _ later => later = phase) phase := by
  induction p with
  | pure a => rfl
  | throw e => trivial
  | ask next ih => exact fun r _ => ih r (h r)
  | call c next ih =>
    refine ⟨hissues c h.1, fun s _ => ?_⟩
    rw [hstays c h.1]
    exact ih s (h.2 s)

/-- A program whose commands are issued in every phase. -/
theorem Uses.conforms_always {P : κ → Prop} (h : p.Uses P)
    (hissues : ∀ phase c, P c → D.issues phase c) : p.Conforms D (fun _ _ => True) phase := by
  induction p generalizing phase with
  | pure a => trivial
  | throw e => trivial
  | ask next ih => exact fun r _ => ih r (h r)
  | call c next ih => exact ⟨hissues phase c h.1, fun s _ => ih s (h.2 s)⟩

end Program

/-- The system whose programs are phased. -/
def System.phased (S : System κ σ ρ ε α ι η) (advance : φ → κ → φ) (start : φ) :
    System (κ × φ) σ ρ ε α ι η where
  program request := (S.program request).phased advance start
  environment := S.environment

/-! ## Phased runs -/

namespace Pool

variable [Executes κ σ] (S : System κ σ ρ ε α ι η) (advance : φ → κ → φ) (start : φ)

/-- The second entry is the first one with its program phased. -/
def PhasedEntry (entry : ι × Program κ σ ρ ε α) (entry' : ι × Program (κ × φ) σ ρ ε α) : Prop :=
  entry'.1 = entry.1 ∧ ∃ phase, entry'.2 = entry.2.phased advance phase

/-- The second pool is the first one with phased programs. -/
structure Phased (P : Pool κ σ ρ ε α ι) (P' : Pool (κ × φ) σ ρ ε α ι) : Prop where
  state : P'.state = P.state
  length : P'.procs.length = P.procs.length
  procs : ∀ i : ℕ, Option.Rel (PhasedEntry advance) P.procs[i]? P'.procs[i]?

variable {S advance start} {P : Pool κ σ ρ ε α ι} {P' : Pool (κ × φ) σ ρ ε α ι}

/-- The next command of a phased program is that of the program. -/
theorem phased_next (advance : φ → κ → φ) (p : Program κ σ ρ ε α) (phase : φ) (reply : ρ) (s : σ) :
    (p.phased advance phase).after s = p.after s ∧
      ∃ later, (p.phased advance phase).next reply s = (p.next reply s).phased advance later := by
  cases p with
  | pure a => exact ⟨rfl, phase, rfl⟩
  | throw e => exact ⟨rfl, phase, rfl⟩
  | call c next => exact ⟨rfl, advance phase c, rfl⟩
  | ask next => exact ⟨rfl, phase, rfl⟩

theorem Phased.act (h : P.Phased advance P') (a : Action ρ ι η) :
    (P.act S a).Phased advance (P'.act (S.phased advance start) a) := by
  cases a with
  | environment e =>
    refine ⟨?_, h.length, h.procs⟩
    change S.environment e P'.state = S.environment e P.state
    rw [h.state]
  | start request =>
    refine ⟨h.state, by simp [Pool.act, h.length], ?_⟩
    intro i
    rw [Pool.act, Pool.act, List.getElem?_append, List.getElem?_append, h.length]
    split_ifs
    · exact h.procs i
    · cases i - P.procs.length with
      | zero => exact .some ⟨rfl, start, rfl⟩
      | succ n => exact .none
  | advance i reply =>
    have hentry := h.procs i
    rw [Pool.act, Pool.act]
    cases hget : P.procs[i]? with
    | none =>
      rw [hget] at hentry
      cases hget' : P'.procs[i]? with
      | none => exact h
      | some entry' =>
        rw [hget'] at hentry
        cases hentry
    | some entry =>
      rw [hget] at hentry
      cases hget' : P'.procs[i]? with
      | none =>
        rw [hget'] at hentry
        cases hentry
      | some entry' =>
        rw [hget'] at hentry
        cases hentry with
        | some hsame =>
          obtain ⟨request, p⟩ := entry
          obtain ⟨request', p'⟩ := entry'
          obtain ⟨hrequest, phase, hphased⟩ := hsame
          dsimp only at hrequest hphased
          subst hrequest hphased
          obtain ⟨hafter, later, hnext⟩ := phased_next advance p phase reply P.state
          refine ⟨?_, by simp [h.length], ?_⟩
          · dsimp only
            rw [h.state]
            exact hafter
          · intro j
            dsimp only
            rw [h.state, hnext, List.getElem?_set, List.getElem?_set, h.length]
            split_ifs
            · exact .some ⟨rfl, later, rfl⟩
            · exact .none
            · exact h.procs j

/-- Phased programs pass through the same states. -/
theorem Phased.states (h : P.Phased advance P') (schedule : List (Action ρ ι η)) :
    P'.states (S.phased advance start) schedule = P.states S schedule := by
  induction schedule generalizing P P' with
  | nil => rw [Pool.states, Pool.states, h.state]
  | cons a schedule ih => rw [Pool.states, Pool.states, h.state, ih (h.act a)]

omit [Executes κ σ] in
theorem phased_idle (s : σ) :
    (idle s : Pool κ σ ρ ε α ι).Phased advance (idle s) := ⟨rfl, rfl, fun _ => .none⟩

theorem states_phased (s : σ) (schedule : List (Action ρ ι η)) :
    (idle s).states (S.phased advance start) schedule = (idle s).states S schedule :=
  (phased_idle s).states schedule

end Pool
end AtomicProgram
