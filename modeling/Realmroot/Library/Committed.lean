import Realmroot.Library.Followed

/-!
# Programs that commit

Once a program has changed something, it does not throw. A call that throws has then changed
nothing, in every run of every system of such programs.
-/

namespace AtomicProgram

namespace Program

variable {κ σ ρ ε α β : Type} {changes : κ → σ → Prop}

/-- Whatever the state and the replies, the program does not throw. -/
def Succeeds : Program κ σ ρ ε α → Prop
  | .pure _ => True
  | .throw _ => False
  | .call _ next => ∀ s, (next s).Succeeds
  | .ask next => ∀ r, (next r).Succeeds

/-- After a command that changes something, the program does not throw. -/
def Commits (changes : κ → σ → Prop) : Program κ σ ρ ε α → Prop
  | .pure _ => True
  | .throw _ => True
  | .call c next => ∀ s, (changes c s → (next s).Succeeds) ∧ (next s).Commits changes
  | .ask next => ∀ r, (next r).Commits changes

/-- Commands that change nothing may stand in front. -/
theorem Commits.bind {p : Program κ σ ρ ε α} {f : α → Program κ σ ρ ε β}
    (hp : p.Uses fun c => ∀ s, ¬ changes c s) (hf : ∀ a, (f a).Commits changes) :
    (p.bind f).Commits changes := by
  induction p with
  | pure a => exact hf a
  | throw e => trivial
  | call c next ih =>
    intro s
    exact ⟨fun hchanges => absurd hchanges (hp.1 s), ih s (hp.2 s)⟩
  | ask next ih => exact fun r => ih r (hp r)

theorem Succeeds.next {p : Program κ σ ρ ε α} (hp : p.Succeeds) (reply : ρ) (s : σ) :
    (p.next reply s).Succeeds := by
  cases p with
  | pure a => trivial
  | throw e => exact hp
  | call c next => exact hp s
  | ask next => exact hp reply

theorem Commits.next {p : Program κ σ ρ ε α} (hp : p.Commits changes) (reply : ρ) (s : σ) :
    (p.next reply s).Commits changes := by
  cases p with
  | pure a => trivial
  | throw e => trivial
  | call c next => exact (hp s).2
  | ask next => exact hp reply

end Program

namespace Pool

variable {κ σ ρ ε α ι η : Type} [Executes κ σ] {S : System κ σ ρ ε α ι η} {P : Pool κ σ ρ ε α ι}
  {changes : κ → σ → Prop} {i : ℕ} {request : ι} {schedule : List (Action ρ ι η)}

/-- What a step keeps of one program, a schedule keeps. -/
theorem run_procs {Q : Program κ σ ρ ε α → Prop}
    (hnext : ∀ p reply s, Q p → Q (p.next reply s)) {p : Program κ σ ρ ε α}
    (hget : P.procs[i]? = some (request, p)) (hp : Q p) :
    ∃ q, (P.run S schedule).procs[i]? = some (request, q) ∧ Q q := by
  induction schedule generalizing P p with
  | nil => exact ⟨p, hget, hp⟩
  | cons a schedule ih =>
    rw [run_cons]
    cases a with
    | start request' =>
      apply ih (P := P.act S (.start request')) _ hp
      rw [Pool.act, List.getElem?_append_left]
      · exact hget
      · exact (List.getElem?_eq_some_iff.mp hget).1
    | environment e => exact ih (P := P.act S (.environment e)) hget hp
    | advance j reply =>
      by_cases hj : j = i
      · subst hj
        exact ih (act_advance_procs hget) (hnext p reply P.state hp)
      · apply ih (P := P.act S (.advance j reply)) _ hp
        rw [Pool.act]
        split
        · rw [List.getElem?_set_ne hj]
          exact hget
        · exact hget

/-- Every program of the pool commits. -/
def Committing (changes : κ → σ → Prop) (P : Pool κ σ ρ ε α ι) : Prop :=
  ∀ entry ∈ P.procs, entry.2.Commits changes

omit [Executes κ σ] in
theorem committing_idle (s : σ) : (idle s : Pool κ σ ρ ε α ι).Committing changes := by
  intro entry hentry
  cases hentry

theorem Committing.act (h : P.Committing changes)
    (hprogram : ∀ request, (S.program request).Commits changes) (a : Action ρ ι η) :
    (P.act S a).Committing changes := by
  cases a with
  | start request =>
    intro entry hentry
    rcases List.mem_append.mp hentry with hold | hnew
    · exact h entry hold
    · rw [List.mem_singleton.mp hnew]
      exact hprogram request
  | environment e => exact h
  | advance j reply =>
    intro entry hentry
    rw [Pool.act] at hentry
    split at hentry
    · rename_i request' p hget
      rcases List.mem_or_eq_of_mem_set hentry with hold | rfl
      · exact h entry hold
      · exact (h _ (List.mem_of_getElem? hget)).next reply P.state
    · exact h entry hentry

/-- A program that changes something does not throw later in the schedule. -/
theorem Committing.succeeds (h : P.Committing changes) {reply : ρ} {c : κ}
    (hcommand : P.command? (.advance i reply : Action ρ ι η) = some c)
    (hchanges : changes c P.state) {e : ε}
    (hend : ((P.act S (.advance i reply)).run S schedule).procs[i]? = some (request, .throw e)) :
    False := by
  obtain ⟨⟨request', p⟩, hget, hp⟩ := Option.bind_eq_some_iff.mp hcommand
  have hcommits := h _ (List.mem_of_getElem? hget)
  have hsucceeds : (p.next reply P.state).Succeeds := by
    cases p with
    | call c' next =>
      rw [Program.command?, Option.some.injEq] at hp
      exact (hcommits P.state).1 (hp ▸ hchanges)
    | pure a => simp [Program.command?] at hp
    | throw e => simp [Program.command?] at hp
    | ask next => simp [Program.command?] at hp
  have hnext : (P.act S (.advance i reply)).procs[i]? = some (request', p.next reply P.state) :=
    act_advance_procs hget
  have hkeeps : ∀ (q : Program κ σ ρ ε α) reply s, q.Succeeds → (q.next reply s).Succeeds :=
    fun _ reply s hs => hs.next reply s
  have hlater : ∃ q, ((P.act S (.advance i reply)).run S schedule).procs[i]? = some (request', q) ∧
      q.Succeeds := run_procs hkeeps hnext hsucceeds
  obtain ⟨q, hq, hlast⟩ := hlater
  rw [hend] at hq
  cases hq
  exact hlast

/-- A call that ends with an error has changed nothing. -/
theorem Committing.commandsOf_throw (h : P.Committing changes)
    (hprogram : ∀ request, (S.program request).Commits changes) {e : ε}
    (hend : (P.run S schedule).procs[i]? = some (request, .throw e)) :
    ∀ entry ∈ P.commandsOf S i schedule, ¬ changes entry.1 entry.2 := by
  induction schedule generalizing P with
  | nil => simp [commandsOf]
  | cons a schedule ih =>
    have hrest := ih (h.act hprogram a) hend
    cases a with
    | start request' => exact hrest
    | environment event => exact hrest
    | advance j reply =>
      intro entry hentry hchanges
      rcases List.mem_append.mp hentry with hhead | htail
      · split_ifs at hhead with hj
        · subst hj
          obtain ⟨c, hc, rfl⟩ := Option.map_eq_some_iff.mp (Option.mem_toList.mp hhead)
          exact h.succeeds hc hchanges hend
        · cases hhead
      · exact hrest entry htail hchanges

/-- The commands of one program are part of the history. -/
theorem mem_history_of_commandsOf {entry : κ × σ}
    (hentry : entry ∈ P.commandsOf S i schedule) :
    ∃ request, (request, entry.1, entry.2) ∈ P.history S schedule := by
  induction schedule generalizing P with
  | nil => simp [commandsOf] at hentry
  | cons a schedule ih =>
    cases a with
    | start request' => exact ih hentry
    | environment event => exact ih hentry
    | advance j reply =>
      rcases List.mem_append.mp hentry with hhead | htail
      · split_ifs at hhead
        · obtain ⟨c, hc, rfl⟩ := Option.map_eq_some_iff.mp (Option.mem_toList.mp hhead)
          obtain ⟨⟨request, p⟩, hget, hp⟩ := Option.bind_eq_some_iff.mp hc
          refine ⟨request, List.mem_append_left _ ?_⟩
          have hstep : P.step? (.advance j reply : Action ρ ι η) = some (request, c) := by
            simp [step?, hget, hp]
          simp [hstep]
        · cases hhead
      · obtain ⟨request, hmem⟩ := ih htail
        exact ⟨request, List.mem_append_right _ hmem⟩

end Pool
end AtomicProgram
