import Realmroot.Library.Pool

/-!
# Simulation

A program over one state simulates a program over another, which sees part of the first one:
each of its commands either leaves what the other one sees alone, or does there what the next
command of the other one does. A system whose programs simulate those of another one refines it:
every schedule of the first one is, without some of its commands, a schedule of the second one
that reaches what is seen of its state, with results that correspond.
-/

namespace AtomicProgram

variable {κ σ ρ ε α κ' τ ε' α' : Type} [Executes κ σ] [Executes κ' τ]

namespace Program

/-- Where the invariant holds, every command of the program keeps it and leaves what is seen of
the state alone, and the program ends as it should. -/
def Unseen (inv : σ → Prop) (view : σ → τ) (Q : Except ε α → Prop) : Program κ σ ρ ε α → Prop
  | .pure a => Q (.ok a)
  | .throw e => Q (.error e)
  | .ask next => ∀ reply, (next reply).Unseen inv view Q
  | .call c next =>
    ∀ s, inv s → inv (exec c s) ∧ view (exec c s) = view s ∧ (next s).Unseen inv view Q

/-- Where the invariant holds, every command of the first program keeps it and is unseen, or is
seen as the next command of the second one. Results correspond. -/
def Simulates (inv : σ → Prop) (view : σ → τ) (R : Except ε α → Except ε' α' → Prop) :
    Program κ σ ρ ε α → Program κ' τ ρ ε' α' → Prop
  | .pure a, q => ∃ result, q.result? = some result ∧ R (.ok a) result
  | .throw e, q => ∃ result, q.result? = some result ∧ R (.error e) result
  | .ask next, q => ∀ reply, (next reply).Simulates inv view R q
  | .call c next, q =>
    (∀ s, inv s →
      inv (exec c s) ∧ view (exec c s) = view s ∧ (next s).Simulates inv view R q) ∨
    ∃ c' next', q = .call c' next' ∧ ∀ s, inv s →
      inv (exec c s) ∧ view (exec c s) = exec c' (view s) ∧
        (next s).Simulates inv view R (next' (view s))

variable {β : Type} {inv : σ → Prop} {view : σ → τ}

section Unseen

omit [Executes κ' τ]

theorem Unseen.mono {Q Q' : Except ε α → Prop} {p : Program κ σ ρ ε α}
    (h : p.Unseen inv view Q) (hQ : ∀ result, Q result → Q' result) : p.Unseen inv view Q' := by
  induction p with
  | pure a => exact hQ _ h
  | throw e => exact hQ _ h
  | ask next ih =>
    intro reply
    exact ih reply (h reply)
  | call c next ih =>
    intro s hs
    obtain ⟨hinv, hview, hnext⟩ := h s hs
    exact ⟨hinv, hview, ih s hnext⟩

theorem Unseen.bind {Q : Except ε α → Prop} {Q' : Except ε β → Prop} {p : Program κ σ ρ ε α}
    {f : α → Program κ σ ρ ε β} (h : p.Unseen inv view Q)
    (hok : ∀ a, Q (.ok a) → (f a).Unseen inv view Q')
    (herror : ∀ e, Q (.error e) → Q' (.error e)) : (p.bind f).Unseen inv view Q' := by
  induction p with
  | pure a => exact hok a h
  | throw e => exact herror e h
  | ask next ih =>
    intro reply
    exact ih reply (h reply)
  | call c next ih =>
    intro s hs
    obtain ⟨hinv, hview, hnext⟩ := h s hs
    exact ⟨hinv, hview, ih s hnext⟩

/-- Unseen programs for the entries of a list, one after the other. -/
theorem Unseen.mapEach {f : β → Program κ σ ρ ε α} {g : β → α} {entries : List β}
    (h : ∀ entry ∈ entries, (f entry).Unseen inv view fun result => result = .ok (g entry)) :
    (Program.mapEach entries f).Unseen inv view fun result => result = .ok (entries.map g) := by
  induction entries with
  | nil => exact rfl
  | cons entry entries ih =>
    have hrest := ih fun later hlater => h later (List.mem_cons_of_mem entry hlater)
    apply (h entry List.mem_cons_self).bind
    · intro a ha
      cases ha
      apply hrest.bind
      · intro as has
        cases has
        exact rfl
      · intro e he
        cases he
    · intro e he
      cases he

end Unseen

variable {R : Except ε α → Except ε' α' → Prop} {q : Program κ' τ ρ ε' α'}

/-- What is done before the other program starts. -/
theorem Unseen.simulates {Q : Except ε β → Prop} {p : Program κ σ ρ ε β}
    {f : β → Program κ σ ρ ε α} (h : p.Unseen inv view Q)
    (hok : ∀ b, Q (.ok b) → (f b).Simulates inv view R q)
    (herror : ∀ e, ¬ Q (.error e)) : (p.bind f).Simulates inv view R q := by
  induction p with
  | pure a => exact hok a h
  | throw e => exact absurd h (herror e)
  | ask next ih =>
    intro reply
    exact ih reply (h reply)
  | call c next ih =>
    apply Or.inl
    intro s hs
    obtain ⟨hinv, hview, hnext⟩ := h s hs
    exact ⟨hinv, hview, ih s hnext⟩

/-- What is done after the other program has ended. -/
theorem Unseen.simulates_result {result : Except ε' α'} {p : Program κ σ ρ ε α}
    (hresult : q.result? = some result) (h : p.Unseen inv view fun r => R r result) :
    p.Simulates inv view R q := by
  induction p with
  | pure a => exact ⟨result, hresult, h⟩
  | throw e => exact ⟨result, hresult, h⟩
  | ask next ih =>
    intro reply
    exact ih reply (h reply)
  | call c next ih =>
    apply Or.inl
    intro s hs
    obtain ⟨hinv, hview, hnext⟩ := h s hs
    exact ⟨hinv, hview, ih s hnext⟩

/-- The results of two programs that have ended correspond. -/
theorem Simulates.result {p : Program κ σ ρ ε α} (h : p.Simulates inv view R q)
    {result : Except ε α} (hresult : p.result? = some result) :
    ∃ result', q.result? = some result' ∧ R result result' := by
  cases p with
  | pure a =>
    cases hresult
    exact h
  | throw e =>
    cases hresult
    exact h
  | ask next => cases hresult
  | call c next => cases hresult

end Program

namespace Pool

variable {ι η : Type} {inv : σ → Prop} {view : σ → τ} {R : Except ε α → Except ε' α' → Prop}

/-- The programs of the first system simulate those of the second one, and so do its events. -/
structure Refines (inv : σ → Prop) (view : σ → τ) (R : Except ε α → Except ε' α' → Prop)
    (S : System κ σ ρ ε α ι η) (T : System κ' τ ρ ε' α' ι η) : Prop where
  program : ∀ request, (S.program request).Simulates inv view R (T.program request)
  environment : ∀ e s, inv s →
    inv (S.environment e s) ∧ view (S.environment e s) = T.environment e (view s)

/-- The second pool is in the state that is seen of the first one, and runs the same requests
with programs that are simulated. -/
structure Seen (inv : σ → Prop) (view : σ → τ) (R : Except ε α → Except ε' α' → Prop)
    (P : Pool κ σ ρ ε α ι) (P' : Pool κ' τ ρ ε' α' ι) : Prop where
  kept : inv P.state
  state : P'.state = view P.state
  procs : List.Forall₂ (fun entry entry' => entry.1 = entry'.1 ∧
    Program.Simulates inv view R entry.2 entry'.2) P.procs P'.procs

variable {S : System κ σ ρ ε α ι η} {T : System κ' τ ρ ε' α' ι η} {P : Pool κ σ ρ ε α ι}
  {P' : Pool κ' τ ρ ε' α' ι}

theorem seen_idle {s : σ} (h : inv s) :
    Seen inv view R (idle s : Pool κ σ ρ ε α ι) (idle (view s) : Pool κ' τ ρ ε' α' ι) :=
  ⟨h, rfl, .nil⟩

/-- A program that has ended has one that has ended beside it. -/
theorem Seen.result (h : Seen inv view R P P') {i : ℕ} {request : ι} {p : Program κ σ ρ ε α}
    {result : Except ε α} (hget : P.procs[i]? = some (request, p))
    (hresult : p.result? = some result) :
    ∃ q result', P'.procs[i]? = some (request, q) ∧ q.result? = some result' ∧
      R result result' := by
  have hi : i < P.procs.length := (List.getElem?_eq_some_iff.mp hget).1
  have hi' : i < P'.procs.length := h.procs.length_eq ▸ hi
  obtain ⟨hrequest, hsimulates⟩ := h.procs.get hi hi'
  have hentry : P.procs[i] = (request, p) := (List.getElem?_eq_some_iff.mp hget).2
  simp only [List.get_eq_getElem, hentry] at hrequest hsimulates
  obtain ⟨result', hend, hR⟩ := hsimulates.result hresult
  refine ⟨P'.procs[i].2, result', ?_, hend, hR⟩
  rw [List.getElem?_eq_getElem hi', hrequest]

/-- The programs beside each other after one of each has made a step. -/
theorem forall₂_set {β γ : Type} {r : β → γ → Prop} {xs : List β} {ys : List γ}
    (h : List.Forall₂ r xs ys) {x : β} {y : γ} (hxy : r x y) (i : ℕ) :
    List.Forall₂ r (xs.set i x) (ys.set i y) := by
  induction h generalizing i with
  | nil => exact .nil
  | cons hhead htail ih =>
    cases i with
    | zero => exact .cons hxy htail
    | succ i => exact .cons hhead (ih i)

theorem Seen.act (h : Seen inv view R P P') (hrefines : Refines inv view R S T)
    (a : Action ρ ι η) :
    Seen inv view R (P.act S a) P' ∨ Seen inv view R (P.act S a) (P'.act T a) := by
  cases a with
  | start request =>
    refine Or.inr ⟨h.kept, h.state, ?_⟩
    exact List.rel_append h.procs (.cons ⟨rfl, hrefines.program request⟩ .nil)
  | environment e =>
    obtain ⟨hinv, hview⟩ := hrefines.environment e P.state h.kept
    refine Or.inr ⟨hinv, ?_, h.procs⟩
    simp only [Pool.act, h.state, hview]
  | advance i reply =>
    cases hget : P.procs[i]? with
    | none =>
      apply Or.inl
      simpa only [Pool.act, hget] using h
    | some entry =>
      obtain ⟨request, p⟩ := entry
      have hi : i < P.procs.length := (List.getElem?_eq_some_iff.mp hget).1
      have hi' : i < P'.procs.length := h.procs.length_eq ▸ hi
      have hentry : P.procs[i] = (request, p) := (List.getElem?_eq_some_iff.mp hget).2
      obtain ⟨hrequest, hsimulates⟩ := h.procs.get hi hi'
      simp only [List.get_eq_getElem, hentry] at hrequest hsimulates
      have hget' : P'.procs[i]? = some (P'.procs[i].1, P'.procs[i].2) :=
        List.getElem?_eq_getElem hi'
      -- a step that is unseen leaves the programs of the other pool as they are
      have hunseen : ∀ {next : Program κ σ ρ ε α},
          next.Simulates inv view R P'.procs[i].2 →
          List.Forall₂ (fun entry entry' => entry.1 = entry'.1 ∧
            Program.Simulates inv view R entry.2 entry'.2)
              (P.procs.set i (request, next)) P'.procs := by
        intro next hnext
        have hset := forall₂_set h.procs (x := (request, next)) (y := P'.procs[i])
          ⟨hrequest, hnext⟩ i
        rwa [List.set_getElem_self] at hset
      cases p with
      | pure value =>
        apply Or.inl
        simp only [Pool.act, hget, Program.after, Program.next]
        exact ⟨h.kept, h.state, hunseen hsimulates⟩
      | throw e =>
        apply Or.inl
        simp only [Pool.act, hget, Program.after, Program.next]
        exact ⟨h.kept, h.state, hunseen hsimulates⟩
      | ask next =>
        apply Or.inl
        simp only [Pool.act, hget, Program.after, Program.next]
        exact ⟨h.kept, h.state, hunseen (hsimulates reply)⟩
      | call c next =>
        rcases hsimulates with hunseenCall | ⟨c', next', hq, hstep⟩
        · obtain ⟨hinv, hview, hnext⟩ := hunseenCall P.state h.kept
          apply Or.inl
          simp only [Pool.act, hget, Program.after, Program.next]
          exact ⟨hinv, h.state.trans hview.symm, hunseen hnext⟩
        · obtain ⟨hinv, hview, hnext⟩ := hstep P.state h.kept
          apply Or.inr
          simp only [Pool.act, hget, hget', hq, Program.after, Program.next]
          refine ⟨hinv, ?_, ?_⟩
          · simp only [h.state, hview]
          · rw [h.state]
            exact forall₂_set h.procs ⟨hrequest, hnext⟩ i

/-- Every schedule is, without some of its steps, a schedule of the system that is refined. -/
theorem Seen.run (h : Seen inv view R P P') (hrefines : Refines inv view R S T)
    (schedule : List (Action ρ ι η)) :
    ∃ schedule', schedule'.Sublist schedule ∧
      Seen inv view R (P.run S schedule) (P'.run T schedule') := by
  induction schedule generalizing P P' with
  | nil => exact ⟨[], .slnil, h⟩
  | cons a schedule ih =>
    rcases h.act hrefines a with hunseen | hseen
    · obtain ⟨schedule', hsublist, hrun⟩ := ih hunseen
      exact ⟨schedule', hsublist.cons a, hrun⟩
    · obtain ⟨schedule', hsublist, hrun⟩ := ih hseen
      exact ⟨a :: schedule', hsublist.cons_cons a, hrun⟩

end Pool
end AtomicProgram
