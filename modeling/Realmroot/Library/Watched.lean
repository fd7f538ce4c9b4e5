import Realmroot.Library.Promises

/-!
# One call among others

Programs that keep their promises are in progress, and one of them is watched. What its request
establishes may refer to the very state in which it is made. It is established although the others
go on, and what they cannot undo holds from then on.
-/

namespace AtomicProgram.Pool

/-- The result of the program in place `i`, when it has ended. -/
def resultAt {κ σ ρ ε α ι : Type} (P : Pool κ σ ρ ε α ι) (i : ℕ) : Option (Except ε α) :=
  (P.procs[i]?).bind fun entry => entry.2.result?

section Result

variable {κ σ ρ ε α ι η : Type} [Executes κ σ] {S : System κ σ ρ ε α ι η} {i : ℕ}
  {r : Except ε α}

/-- A program that has ended has ended for good. -/
theorem resultAt_act {P : Pool κ σ ρ ε α ι} (h : P.resultAt i = some r) (a : Action ρ ι η) :
    (P.act S a).resultAt i = some r := by
  obtain ⟨entry, hget, hr⟩ := Option.bind_eq_some_iff.mp h
  have hi := (List.getElem?_eq_some_iff.mp hget).1
  cases a with
  | start request =>
    simp only [resultAt, act, List.getElem?_append_left hi, hget]
    exact hr
  | environment e => exact h
  | advance j reply =>
    cases hother : P.procs[j]? with
    | none =>
      simp only [resultAt, act, hother, hget]
      exact hr
    | some other =>
      by_cases hj : j = i
      · subst hj
        simp only [resultAt, act, hget, List.getElem?_set_self hi, Option.bind_some]
        cases hp : entry.2 with
        | pure a => rwa [hp] at hr
        | throw e => rwa [hp] at hr
        | call c next => simp [hp, Program.result?] at hr
        | ask next => simp [hp, Program.result?] at hr
      · simp only [resultAt, act, hother, List.getElem?_set_ne hj, hget]
        exact hr

theorem resultAt_run {P : Pool κ σ ρ ε α ι} (h : P.resultAt i = some r)
    (schedule : List (Action ρ ι η)) : (P.run S schedule).resultAt i = some r := by
  induction schedule generalizing P with
  | nil => exact h
  | cons a schedule ih => exact ih (resultAt_act h a)

end Result

namespace Promises

variable {κ σ ρ ε α ι η : Type} [Executes κ σ] {S : System κ σ ρ ε α ι η}
  {D : Promises κ σ ρ ε α ι} {P : Pool κ σ ρ ε α ι} {post : Except ε α → σ → Prop} {i : ℕ}

/-- The program in place `i` is there, and will establish the postcondition. -/
def Watched (D : Promises κ σ ρ ε α ι) (post : Except ε α → σ → Prop) (i : ℕ)
    (P : Pool κ σ ρ ε α ι) : Prop :=
  ∃ entry, P.procs[i]? = some entry ∧ entry.2.Meets (D.contract entry.1) post P.state

/-- The watched program takes its next step. -/
theorem Inv.meets_next (hP : D.Inv P) (hD : D.Sound S) {reply : ρ}
    {entry : ι × Program κ σ ρ ε α} (hget : P.procs[i]? = some entry)
    (hmeets : entry.2.Meets (D.contract entry.1) post P.state)
    (hadmits : D.steps.Admits P (.advance i reply : Action ρ ι η)) :
    (entry.2.next reply P.state).Meets (D.contract entry.1) post (entry.2.after P.state) := by
  cases hp : entry.2 with
  | pure a =>
    rw [hp] at hmeets
    exact hmeets
  | throw e =>
    rw [hp] at hmeets
    exact hmeets
  | ask next =>
    rw [hp] at hmeets
    exact hmeets reply P.state (hadmits.1 i reply rfl) (hD.refl _)
  | call c next =>
    have hstep : P.step? (.advance i reply : Action ρ ι η) = some (entry.1, c) := by
      simp [step?, hget, hp, Program.command?]
    rw [hp] at hmeets
    exact (hmeets P.state (hD.refl _) ⟨hP.state, hadmits.2 (entry.1, c) hstep⟩).2

section Stable

variable (hD : D.Sound S) (hstable : ∀ r s t, post r s → D.moves s t → post r t)

include hD hstable

/-- One action, whether of the watched program, of another one or of the environment. -/
theorem Watched.act (h : D.Watched post i P) (hP : D.Inv P) {a : Action ρ ι η}
    (hadmits : D.steps.Admits P a) : D.Watched post i (P.act S a) := by
  obtain ⟨entry, hget, hmeets⟩ := h
  have hmoved := (hP.act hD hadmits).2
  have hlater : entry.2.Meets (D.contract entry.1) post (P.act S a).state :=
    hmeets.stable (C := D.contract entry.1) hD.trans hstable hmoved
  cases a with
  | start request =>
    refine ⟨entry, ?_, hlater⟩
    have hi := (List.getElem?_eq_some_iff.mp hget).1
    rw [Pool.act, List.getElem?_append_left hi]
    exact hget
  | environment e => exact ⟨entry, hget, hlater⟩
  | advance j reply =>
    cases hother : P.procs[j]? with
    | none =>
      refine ⟨entry, ?_, hlater⟩
      simp only [Pool.act, hother]
      exact hget
    | some other =>
      by_cases hj : j = i
      · subst hj
        have hnext := hP.meets_next hD hget hmeets hadmits
        have hj := (List.getElem?_eq_some_iff.mp hget).1
        refine ⟨(entry.1, entry.2.next reply P.state), ?_, ?_⟩
        · simp only [Pool.act, hget]
          rw [List.getElem?_set_self hj]
        · simp only [Pool.act, hget]
          exact hnext
      · refine ⟨entry, ?_, hlater⟩
        simp only [Pool.act, hother]
        rw [List.getElem?_set_ne hj]
        exact hget

theorem Watched.run (h : D.Watched post i P) (hP : D.Inv P) {schedule : List (Action ρ ι η)}
    (hadmits : Throughout S D.steps.Admits P schedule) :
    D.Watched post i (P.run S schedule) := by
  induction schedule generalizing P with
  | nil => exact h
  | cons a schedule ih =>
    rw [run_cons]
    exact ih (h.act hD hstable hP hadmits.1) (hP.act hD hadmits.1).1 hadmits.2

/-- A call is made after some actions; when it has ended after some more, what its request
establishes holds. -/
theorem Sound.called {s : σ} (hs : D.inv s) {before after : List (Action ρ ι η)} {request : ι}
    (hadmits : Throughout S D.steps.Admits (idle s) (before ++ .start request :: after))
    (hmeets : (S.program request).Meets (D.contract request) post ((idle s).run S before).state)
    {r : Except ε α}
    (hresult : ((idle s).run S (before ++ .start request :: after)).resultAt
      ((idle s).run S before).procs.length = some r) :
    post r ((idle s).run S (before ++ .start request :: after)).state := by
  obtain ⟨hbefore, hrest⟩ := (inv_idle hs).reaches hD hadmits
  obtain ⟨entry, hget, hr⟩ := Option.bind_eq_some_iff.mp hresult
  rw [run_append, run_cons] at hget ⊢
  have hstarted : D.Watched post ((idle s).run S before).procs.length
      (((idle s).run S before).act S (.start request)) := by
    refine ⟨(request, S.program request), ?_, hmeets⟩
    simp [Pool.act]
  have hwatched := hstarted.run hD hstable (hbefore.act hD hrest.1).1 hrest.2
  obtain ⟨entry', hget', hends⟩ := hwatched
  rw [hget] at hget'
  cases hget'
  cases hp : entry.2 with
  | pure a =>
    rw [hp] at hends hr
    cases hr
    exact hends
  | throw e =>
    rw [hp] at hends hr
    cases hr
    exact hends
  | call c next =>
    rw [hp] at hr
    cases hr
  | ask next =>
    rw [hp] at hr
    cases hr

end Stable

end Promises
end AtomicProgram.Pool
