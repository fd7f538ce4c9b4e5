import Realmroot.Library.Promises

/-!
# Programs that settle with one write

A program only reads until its last command, which writes; it returns when the write is accepted
and throws when it is not. The calls of a run that return are then the writes that are accepted,
one for one.
-/

namespace AtomicProgram

namespace Program

variable {κ σ ρ ε α β : Type} {writes : κ → Bool} {accepts : κ → σ → Bool}

/-- The only write is the last command, and its acceptance decides the result. -/
def Settles (writes : κ → Bool) (accepts : κ → σ → Bool) : Program κ σ ρ ε α → Prop
  | .pure _ => False
  | .throw _ => True
  | .call c next => ∀ s,
    (writes c = true → ∃ r, (next s).result? = some r ∧ r.isOk = accepts c s) ∧
      (writes c = false → (next s).Settles writes accepts)
  | .ask next => ∀ r, (next r).Settles writes accepts

/-- What comes before a program that settles does not write. -/
theorem Settles.bind {p : Program κ σ ρ ε α} {f : α → Program κ σ ρ ε β}
    (hp : p.Uses (writes · = false)) (hf : ∀ a, (f a).Settles writes accepts) :
    (p.bind f).Settles writes accepts := by
  induction p with
  | pure a => exact hf a
  | throw e => trivial
  | call c next ih =>
    intro s
    refine ⟨?_, fun _ => ih s (hp.2 s)⟩
    intro hwrites
    rw [hp.1] at hwrites
    cases hwrites
  | ask next ih => exact fun r => ih r (hp r)

theorem settles_call {c : κ} {next : σ → Program κ σ ρ ε α} (hwrites : writes c = true)
    (h : ∀ s, ∃ r, (next s).result? = some r ∧ r.isOk = accepts c s) :
    (Program.call c next : Program κ σ ρ ε α).Settles writes accepts := by
  intro s
  refine ⟨fun _ => h s, ?_⟩
  intro hreads
  rw [hwrites] at hreads
  cases hreads

/-- What follows a program that settles changes its value. -/
theorem Settles.map {p : Program κ σ ρ ε α} (hp : p.Settles writes accepts) (f : α → β) :
    (p.bind fun a => .pure (f a)).Settles writes accepts := by
  induction p with
  | pure a => exact hp.elim
  | throw e => trivial
  | call c next ih =>
    intro s
    obtain ⟨hlast, hgoes⟩ := hp s
    refine ⟨?_, fun hreads => ih s (hgoes hreads)⟩
    intro hwrites
    obtain ⟨r, hr, hok⟩ := hlast hwrites
    cases hnext : next s with
    | pure a =>
      rw [hnext, result?, Option.some.injEq] at hr
      subst hr
      refine ⟨.ok (f a), ?_, hok⟩
      change ((next s).bind fun a => .pure (f a)).result? = _
      rw [hnext]
      rfl
    | throw e =>
      rw [hnext, result?, Option.some.injEq] at hr
      subst hr
      refine ⟨.error e, ?_, hok⟩
      change ((next s).bind fun a => .pure (f a)).result? = _
      rw [hnext]
      rfl
    | call c' next' => simp [hnext, result?] at hr
    | ask next' => simp [hnext, result?] at hr
  | ask next ih => exact fun r => ih r (hp r)

end Program

namespace Pool

variable {κ σ ρ ε α ι η : Type} [Executes κ σ] {S : System κ σ ρ ε α ι η} {writes : κ → Bool}
  {accepts : κ → σ → Bool} {P : Pool κ σ ρ ε α ι}

/-- Every program in progress settles. -/
def Settling (writes : κ → Bool) (accepts : κ → σ → Bool) (P : Pool κ σ ρ ε α ι) : Prop :=
  ∀ entry ∈ P.procs, entry.2.result? = none → entry.2.Settles writes accepts

omit [Executes κ σ] in
theorem settling_idle (s : σ) : (idle s : Pool κ σ ρ ε α ι).Settling writes accepts := by
  intro entry hentry
  cases hentry

theorem Settling.act (h : P.Settling writes accepts)
    (hprogram : ∀ request, (S.program request).Settles writes accepts) (a : Action ρ ι η) :
    (P.act S a).Settling writes accepts := by
  cases a with
  | start request =>
    intro entry hentry hrunning
    rcases List.mem_append.mp hentry with hold | hnew
    · exact h entry hold hrunning
    · rw [List.mem_singleton.mp hnew]
      exact hprogram request
  | environment e => exact h
  | advance i reply =>
    intro entry hentry hrunning
    rw [Pool.act] at hentry
    split at hentry
    · rename_i request p hget
      rcases List.mem_or_eq_of_mem_set hentry with hold | rfl
      · exact h entry hold hrunning
      · have hp := h _ (List.mem_of_getElem? hget)
        cases p with
        | pure a => cases hrunning
        | throw e => cases hrunning
        | ask next => exact hp rfl reply
        | call c next =>
          obtain ⟨hlast, hgoes⟩ := hp rfl P.state
          cases hwrites : writes c with
          | true =>
            obtain ⟨r, hr, -⟩ := hlast hwrites
            rw [show (next P.state).result? = none from hrunning] at hr
            cases hr
          | false => exact hgoes hwrites
    · exact h entry hentry hrunning

/-- A step that writes ends the call, and a call that returns does so with a write. -/
theorem Settling.ending (h : P.Settling writes accepts) (haccepts : ∀ c s,
    accepts c s = true → writes c = true) (a : Action ρ ι η) :
    ((P.ending? a).toList.filter fun entry => entry.2.1.isOk).map
        (fun entry => (entry.1, entry.2.2)) =
      (((P.step? a).map fun step => (step.1, step.2, P.state)).toList.filter
        fun entry => accepts entry.2.1 entry.2.2).map
          fun entry => (entry.1, exec entry.2.1 entry.2.2) := by
  cases a with
  | start request => rfl
  | environment e => rfl
  | advance i reply =>
    cases hget : P.procs[i]? with
    | none => simp [ending?, step?, hget]
    | some entry =>
      obtain ⟨request, p⟩ := entry
      have hp := h _ (List.mem_of_getElem? hget)
      cases p with
      | pure a => simp [ending?, step?, hget, Program.result?, Program.command?]
      | throw e => simp [ending?, step?, hget, Program.result?, Program.command?]
      | ask next =>
        have hnext := hp rfl reply
        cases hq : next reply with
        | pure a =>
          rw [hq] at hnext
          exact hnext.elim
        | throw e =>
          simp [ending?, step?, hget, Program.result?, Program.command?, Program.next, hq,
            Except.isOk, Except.toBool]
        | call c next' =>
          simp [ending?, step?, hget, Program.result?, Program.command?, Program.next, hq]
        | ask next' =>
          simp [ending?, step?, hget, Program.result?, Program.command?, Program.next, hq]
      | call c next =>
        obtain ⟨hlast, hgoes⟩ := hp rfl P.state
        cases hwrites : writes c with
        | true =>
          obtain ⟨r, hr, hok⟩ := hlast hwrites
          have hrunning : (Program.call c next : Program κ σ ρ ε α).result? = none := rfl
          cases haccept : accepts c P.state <;>
            simp [ending?, step?, hget, hrunning, Program.command?, Program.next, Program.after,
              hr, haccept, hok]
        | false =>
          have hrejects : accepts c P.state = false := by
            cases haccept : accepts c P.state with
            | false => rfl
            | true =>
              rw [haccepts c P.state haccept] at hwrites
              cases hwrites
          have hnext := hgoes hwrites
          cases hq : next P.state with
          | pure a =>
            rw [hq] at hnext
            exact hnext.elim
          | throw e =>
            simp [ending?, step?, hget, Program.result?, Program.command?, Program.next, hq,
              hrejects, Except.isOk, Except.toBool]
          | call c' next' =>
            simp [ending?, step?, hget, Program.result?, Program.command?, Program.next, hq,
              hrejects]
          | ask next' =>
            simp [ending?, step?, hget, Program.result?, Program.command?, Program.next, hq,
              hrejects]

/-- The calls that return are the writes that are accepted. -/
theorem Settling.endings (h : P.Settling writes accepts)
    (hprogram : ∀ request, (S.program request).Settles writes accepts)
    (haccepts : ∀ c s, accepts c s = true → writes c = true) (schedule : List (Action ρ ι η)) :
    ((P.endings S schedule).filter fun entry => entry.2.1.isOk).map
        (fun entry => (entry.1, entry.2.2)) =
      ((P.history S schedule).filter fun entry => accepts entry.2.1 entry.2.2).map
        fun entry => (entry.1, exec entry.2.1 entry.2.2) := by
  induction schedule generalizing P with
  | nil => rfl
  | cons a schedule ih =>
    simp only [Pool.endings, Pool.history, List.filter_append, List.map_append]
    rw [h.ending haccepts a, ih (h.act hprogram a)]

end Pool
end AtomicProgram
