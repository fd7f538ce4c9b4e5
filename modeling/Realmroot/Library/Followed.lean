import Realmroot.Library.Pool

/-!
# What follows a command

What a command reads may decide the commands that its program executes later. The relation is
proved along the program, and it then holds in every run of every system of such programs.
-/

namespace AtomicProgram

namespace Program

variable {κ σ ρ ε α β : Type} {R : κ → σ → κ → Prop}

/-- Every later command is related to each earlier one, and to the state in which that one
executed. -/
def Follows (R : κ → σ → κ → Prop) : Program κ σ ρ ε α → Prop
  | .pure _ => True
  | .throw _ => True
  | .call c next => ∀ s, (next s).Uses (R c s) ∧ (next s).Follows R
  | .ask next => ∀ r, (next r).Follows R

theorem uses_of_forall {P : κ → Prop} (h : ∀ c, P c) (p : Program κ σ ρ ε α) : p.Uses P := by
  induction p with
  | pure a => trivial
  | throw e => trivial
  | call c next ih => exact ⟨h c, ih⟩
  | ask next ih => exact ih

/-- Commands that decide nothing may stand in front. -/
theorem Follows.bind {free : κ → Prop} (hfree : ∀ c, free c → ∀ s c', R c s c')
    {p : Program κ σ ρ ε α} {f : α → Program κ σ ρ ε β} (hp : p.Uses free)
    (hf : ∀ a, (f a).Follows R) : (p.bind f).Follows R := by
  induction p with
  | pure a => exact hf a
  | throw e => trivial
  | call c next ih =>
    intro s
    exact ⟨uses_of_forall (hfree c hp.1 s) _, ih s (hp.2 s)⟩
  | ask next ih => exact fun r => ih r (hp r)

/-- What comes after a program may change its value. -/
theorem Follows.map {p : Program κ σ ρ ε α} (hp : p.Follows R) (f : α → β) :
    (p.bind fun a => .pure (f a)).Follows R := by
  induction p with
  | pure a => trivial
  | throw e => trivial
  | call c next ih =>
    intro s
    exact ⟨(hp s).1.bind fun _ => trivial, ih s (hp s).2⟩
  | ask next ih => exact fun r => ih r (hp r)

/-- A program whose commands decide nothing. -/
theorem Uses.follows {free : κ → Prop} (hfree : ∀ c, free c → ∀ s c', R c s c')
    {p : Program κ σ ρ ε α} (hp : p.Uses free) : p.Follows R := by
  induction p with
  | pure a => trivial
  | throw e => trivial
  | call c next ih =>
    intro s
    exact ⟨uses_of_forall (hfree c hp.1 s) _, ih s (hp.2 s)⟩
  | ask next ih => exact fun r => ih r (hp r)

/-- A command that satisfies `B` is only executed after one that satisfies `A`. -/
def Precedes (A : κ → σ → Prop) (B : κ → Prop) : Program κ σ ρ ε α → Prop
  | .pure _ => True
  | .throw _ => True
  | .call c next => ¬ B c ∧ ∀ s, ¬ A c s → (next s).Precedes A B
  | .ask next => ∀ r, (next r).Precedes A B

variable {A : κ → σ → Prop} {B : κ → Prop}

/-- Commands of another kind may stand in front. -/
theorem Precedes.bind {p : Program κ σ ρ ε α} {f : α → Program κ σ ρ ε β}
    (hp : p.Uses fun c => ¬ B c) (hf : ∀ a, (f a).Precedes A B) : (p.bind f).Precedes A B := by
  induction p with
  | pure a => exact hf a
  | throw e => trivial
  | call c next ih => exact ⟨hp.1, fun s _ => ih s (hp.2 s)⟩
  | ask next ih => exact fun r => ih r (hp r)

/-- What comes after a program may change its value. -/
theorem Precedes.map {p : Program κ σ ρ ε α} (hp : p.Precedes A B) (f : α → β) :
    (p.bind fun a => .pure (f a)).Precedes A B := by
  induction p with
  | pure a => trivial
  | throw e => trivial
  | call c next ih => exact ⟨hp.1, fun s hs => ih s (hp.2 s hs)⟩
  | ask next ih => exact fun r => ih r (hp r)

end Program

namespace Pool

variable {κ σ ρ ε α ι η : Type} [Executes κ σ] (S : System κ σ ρ ε α ι η)

/-- The commands that one program of the pool executes in a schedule, each with its state. -/
def commandsOf (i : ℕ) : Pool κ σ ρ ε α ι → List (Action ρ ι η) → List (κ × σ)
  | _, [] => []
  | P, .advance j reply :: schedule =>
    (if j = i then
      ((P.command? (.advance j reply : Action ρ ι η)).map fun c => (c, P.state)).toList
    else []) ++ commandsOf i (P.act S (.advance j reply)) schedule
  | P, a :: schedule => commandsOf i (P.act S a) schedule

variable {S} {P : Pool κ σ ρ ε α ι} {R : κ → σ → κ → Prop}

theorem act_advance_procs {i : ℕ} {reply : ρ} {request : ι} {p : Program κ σ ρ ε α}
    (hget : P.procs[i]? = some (request, p)) :
    (P.act S (.advance i reply)).procs[i]? = some (request, p.next reply P.state) := by
  simp only [Pool.act, hget]
  exact List.getElem?_set_self (List.getElem?_eq_some_iff.mp hget).1

/-- What every command of a program satisfies holds of the commands that it executes. -/
theorem commandsOf_uses {Q : κ → Prop} {i : ℕ} {request : ι} {p : Program κ σ ρ ε α}
    (hget : P.procs[i]? = some (request, p)) (hp : p.Uses Q) (schedule : List (Action ρ ι η)) :
    ∀ entry ∈ P.commandsOf S i schedule, Q entry.1 := by
  induction schedule generalizing P p with
  | nil => simp [commandsOf]
  | cons a schedule ih =>
    cases a with
    | start request' =>
      apply ih (P := P.act S (.start request')) _ hp
      rw [Pool.act, List.getElem?_append_left]
      · exact hget
      · exact (List.getElem?_eq_some_iff.mp hget).1
    | environment e => exact ih (P := P.act S (.environment e)) hget hp
    | advance j reply =>
      intro entry hentry
      rcases List.mem_append.mp hentry with hhead | htail
      · split_ifs at hhead with hj
        · subst hj
          obtain ⟨c, hc, rfl⟩ := Option.map_eq_some_iff.mp (Option.mem_toList.mp hhead)
          simp only [command?, hget, Option.bind_some] at hc
          cases p with
          | call c' next =>
            rw [Program.command?, Option.some.injEq] at hc
            exact hc ▸ hp.1
          | pure a => simp [Program.command?] at hc
          | throw e => simp [Program.command?] at hc
          | ask next => simp [Program.command?] at hc
        · cases hhead
      · by_cases hj : j = i
        · subst hj
          apply ih (act_advance_procs hget) _ entry htail
          cases p with
          | pure a => exact hp
          | throw e => exact hp
          | call c next => exact hp.2 P.state
          | ask next => exact hp reply
        · apply ih (P := P.act S (.advance j reply)) _ hp entry htail
          rw [Pool.act]
          split
          · rw [List.getElem?_set_ne hj]
            exact hget
          · exact hget

/-- Every program in the pool follows the relation. -/
def Following (R : κ → σ → κ → Prop) (P : Pool κ σ ρ ε α ι) : Prop :=
  ∀ entry ∈ P.procs, entry.2.Follows R

theorem Following.act (h : P.Following R) (hprogram : ∀ request, (S.program request).Follows R)
    (a : Action ρ ι η) : (P.act S a).Following R := by
  cases a with
  | start request =>
    intro entry hentry
    rcases List.mem_append.mp hentry with hold | hnew
    · exact h entry hold
    · rw [List.mem_singleton.mp hnew]
      exact hprogram request
  | environment e => exact h
  | advance i reply =>
    intro entry hentry
    rw [Pool.act] at hentry
    split at hentry
    · rename_i request p hget
      rcases List.mem_or_eq_of_mem_set hentry with hold | rfl
      · exact h entry hold
      · have hp := h _ (List.mem_of_getElem? hget)
        cases p with
        | pure a => exact hp
        | throw e => exact hp
        | call c next => exact (hp P.state).2
        | ask next => exact hp reply
    · exact h entry hentry

theorem Following.run (hprogram : ∀ request, (S.program request).Follows R)
    (schedule : List (Action ρ ι η)) (h : P.Following R) : (P.run S schedule).Following R := by
  induction schedule generalizing P with
  | nil => exact h
  | cons a schedule ih =>
    rw [run_cons]
    exact ih (h.act hprogram a)

omit [Executes κ σ] in
theorem following_idle (s : σ) : (idle s : Pool κ σ ρ ε α ι).Following R := by
  intro entry hentry
  cases hentry

/-- What a program executes after a command is related to that command. -/
theorem Following.commandsOf (h : P.Following R) {i : ℕ} {reply : ρ} {request : ι} {c : κ}
    (hstep : P.step? (.advance i reply : Action ρ ι η) = some (request, c))
    (schedule : List (Action ρ ι η)) :
    ∀ entry ∈ (P.act S (.advance i reply)).commandsOf S i schedule, R c P.state entry.1 := by
  obtain ⟨⟨request', p⟩, hget, hcommand⟩ := Option.bind_eq_some_iff.mp hstep
  obtain ⟨c', hc, heq⟩ := Option.map_eq_some_iff.mp hcommand
  cases heq
  have hp := h _ (List.mem_of_getElem? hget)
  cases p with
  | call c' next =>
    rw [Program.command?, Option.some.injEq] at hc
    subst hc
    exact commandsOf_uses (act_advance_procs hget) (hp P.state).1 schedule
  | pure a => simp [Program.command?] at hc
  | throw e => simp [Program.command?] at hc
  | ask next => simp [Program.command?] at hc

theorem commandsOf_cons (i : ℕ) (a : Action ρ ι η) (schedule : List (Action ρ ι η)) :
    P.commandsOf S i (a :: schedule) =
      P.commandsOf S i [a] ++ (P.act S a).commandsOf S i schedule := by
  cases a with
  | start request => rfl
  | environment e => rfl
  | advance j reply => simp [Pool.commandsOf]

theorem commandsOf_call {i : ℕ} {reply : ρ} {request : ι} {c : κ}
    {next : σ → Program κ σ ρ ε α} (hget : P.procs[i]? = some (request, .call c next)) :
    (c, P.state) ∈ P.commandsOf S i [.advance i reply] := by
  simp [Pool.commandsOf, command?, hget, Program.command?]

variable {A : κ → σ → Prop} {B : κ → Prop}

/-- Among the commands of one program, one of the second kind comes with one of the first. -/
theorem commandsOf_precedes (hprogram : ∀ request, (S.program request).Precedes A B) {i : ℕ}
    (schedule : List (Action ρ ι η))
    (hproc : ∀ entry, P.procs[i]? = some entry → entry.2.Precedes A B) :
    ∀ entry ∈ P.commandsOf S i schedule, B entry.1 →
      ∃ entry' ∈ P.commandsOf S i schedule, A entry'.1 entry'.2 := by
  induction schedule generalizing P with
  | nil => simp [Pool.commandsOf]
  | cons a schedule ih =>
    have hrest : (∀ entry, (P.act S a).procs[i]? = some entry → entry.2.Precedes A B) →
        (∀ entry ∈ P.commandsOf S i [a], ¬ B entry.1) →
          ∀ entry ∈ P.commandsOf S i (a :: schedule), B entry.1 →
            ∃ entry' ∈ P.commandsOf S i (a :: schedule), A entry'.1 entry'.2 := by
      intro hnext hhead entry hentry hB
      rw [commandsOf_cons] at hentry ⊢
      rcases List.mem_append.mp hentry with hfirst | hlater
      · exact absurd hB (hhead entry hfirst)
      · obtain ⟨entry', hentry', hA⟩ := ih hnext entry hlater hB
        exact ⟨entry', List.mem_append_right _ hentry', hA⟩
    cases a with
    | environment e => exact hrest hproc (by simp [Pool.commandsOf])
    | start request =>
      refine hrest ?_ (by simp [Pool.commandsOf])
      intro entry hentry
      rw [Pool.act, List.getElem?_append] at hentry
      split_ifs at hentry
      · exact hproc entry hentry
      · obtain ⟨-, rfl⟩ := List.getElem?_eq_some_iff.mp hentry
        simp [hprogram request]
    | advance j reply =>
      by_cases hj : j = i
      · subst hj
        cases hget : P.procs[j]? with
        | none =>
          refine hrest ?_ (by simp [Pool.commandsOf, command?, hget])
          simp [Pool.act, hget]
        | some entry =>
          obtain ⟨request, p⟩ := entry
          have hp := hproc _ hget
          have hmine : (P.act S (.advance j reply)).procs[j]? =
              some (request, p.next reply P.state) := act_advance_procs hget
          cases p with
          | pure a =>
            refine hrest ?_ (by simp [Pool.commandsOf, command?, hget, Program.command?])
            rw [hmine]
            rintro _ ⟨⟩
            trivial
          | throw e =>
            refine hrest ?_ (by simp [Pool.commandsOf, command?, hget, Program.command?])
            rw [hmine]
            rintro _ ⟨⟩
            trivial
          | ask next =>
            refine hrest ?_ (by simp [Pool.commandsOf, command?, hget, Program.command?])
            rw [hmine]
            rintro _ ⟨⟩
            exact hp reply
          | call c next =>
            by_cases hA : A c P.state
            · intro _ _ _
              refine ⟨(c, P.state), ?_, hA⟩
              rw [commandsOf_cons]
              exact List.mem_append_left _ (commandsOf_call hget)
            · refine hrest ?_ ?_
              · rw [hmine]
                rintro _ ⟨⟩
                exact hp.2 P.state hA
              · intro entry hentry
                simp only [Pool.commandsOf, command?, hget, Program.command?, Option.bind_some,
                  Option.map_some, Option.toList_some, if_true, List.append_nil,
                  List.mem_singleton] at hentry
                rw [hentry]
                exact hp.1
      · refine hrest ?_ (by simp [Pool.commandsOf, hj])
        intro entry hentry
        apply hproc entry
        rw [Pool.act] at hentry
        split at hentry
        · rwa [List.getElem?_set_ne hj] at hentry
        · exact hentry

end Pool
end AtomicProgram
