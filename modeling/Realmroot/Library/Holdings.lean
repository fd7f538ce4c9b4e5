import Realmroot.Library.CallLogs
import Realmroot.Library.Memory

/-!
# Holdings

What a program remembers of its commands says what it holds: a name that it has generated, a place
in a table, an object that it has stored. An invariant may relate the state to what all programs
hold, since a command changes what its own program holds and nothing that others do. How a program
ends is related to what it still holds then.
-/

namespace AtomicProgram

/-- Two memories side by side. -/
def Memory.prod {κ σ φ ψ : Type} (M : Memory κ σ φ) (N : Memory κ σ ψ) : Memory κ σ (φ × ψ) where
  advance held c s := (M.advance held.1 c s, N.advance held.2 c s)
  issues held c := M.issues held.1 c ∧ N.issues held.2 c

/-- What is held after some commands. -/
def Memory.recall {κ σ φ : Type} (M : Memory κ σ φ) (held : φ) (entries : List (κ × σ)) : φ :=
  entries.foldl (fun held entry => M.advance held entry.1 entry.2) held

namespace Program

variable {κ σ ρ ε α β φ ψ : Type} {M : Memory κ σ φ} {N : Memory κ σ ψ}

/-- Every command is one that may be executed with what is held, and what is held in the end fits
the way in which the program ends. -/
def Holds (M : Memory κ σ φ) (returned : α → φ → Prop) (thrown : ε → φ → Prop) :
    φ → Program κ σ ρ ε α → Prop
  | held, .pure a => returned a held
  | held, .throw e => thrown e held
  | held, .call c next =>
    M.issues held c ∧ ∀ s, (next s).Holds M returned thrown (M.advance held c s)
  | held, .ask next => ∀ r, (next r).Holds M returned thrown held

variable {returned : α → φ → Prop} {thrown : ε → φ → Prop} {p : Program κ σ ρ ε α} {held : φ}

theorem Holds.mono {returned' : α → φ → Prop} {thrown' : ε → φ → Prop}
    (h : p.Holds M returned thrown held) (hreturned : ∀ a held, returned a held → returned' a held)
    (hthrown : ∀ e held, thrown e held → thrown' e held) :
    p.Holds M returned' thrown' held := by
  induction p generalizing held with
  | pure a => exact hreturned a held h
  | throw e => exact hthrown e held h
  | call c next ih => exact ⟨h.1, fun s => ih s (h.2 s)⟩
  | ask next ih => exact fun r => ih r (h r)

theorem Holds.bind {returned' : β → φ → Prop} {f : α → Program κ σ ρ ε β}
    (hp : p.Holds M returned thrown held)
    (hf : ∀ a held, returned a held → (f a).Holds M returned' thrown held) :
    (p.bind f).Holds M returned' thrown held := by
  induction p generalizing held with
  | pure a => exact hf a held hp
  | throw e => exact hp
  | call c next ih => exact ⟨hp.1, fun s => ih s (hp.2 s)⟩
  | ask next ih => exact fun r => ih r (hp r)

theorem Holds.tryCatch {thrown' : ε → φ → Prop} {handler : ε → Program κ σ ρ ε α}
    (hp : p.Holds M returned thrown held)
    (hhandler : ∀ e held, thrown e held → (handler e).Holds M returned thrown' held) :
    (p.tryCatch handler).Holds M returned thrown' held := by
  induction p generalizing held with
  | pure a => exact hp
  | throw e => exact hhandler e held hp
  | call c next ih => exact ⟨hp.1, fun s => ih s (hp.2 s)⟩
  | ask next ih => exact fun r => ih r (hp r)

theorem Tracks.holds {post : α → φ → Prop} (h : p.Tracks M post held) :
    p.Holds M post (fun _ _ => True) held := by
  induction p generalizing held with
  | pure a => exact h
  | throw e => trivial
  | call c next ih => exact ⟨h.1, fun s => ih s (h.2 s)⟩
  | ask next ih => exact fun r => ih r (h r)

/-- Commands that may be executed while something holds that they keep. -/
theorem Uses.holds {P : κ → Prop} {J : φ → Prop} (h : p.Uses P)
    (hissues : ∀ c held, P c → J held → M.issues held c)
    (hkeeps : ∀ c held s, P c → J held → J (M.advance held c s)) (hheld : J held) :
    p.Holds M (fun _ => J) (fun _ => J) held := by
  induction p generalizing held with
  | pure a => exact hheld
  | throw e => exact hheld
  | call c next ih =>
    exact ⟨hissues c held h.1 hheld, fun s => ih s (h.2 s) (hkeeps c held s h.1 hheld)⟩
  | ask next ih => exact fun r => ih r (h r) hheld

theorem Uses.mapEach_mem {P : κ → Prop} {bs : List β} {f : β → Program κ σ ρ ε α}
    (hf : ∀ b ∈ bs, (f b).Uses P) : (Program.mapEach bs f).Uses P := by
  induction bs with
  | nil => trivial
  | cons b bs ih =>
    rw [List.forall_mem_cons] at hf
    exact hf.1.bind fun _ => (ih hf.2).bind fun _ => trivial

theorem Holds.prod {returned' : α → ψ → Prop} {thrown' : ε → ψ → Prop} {held' : ψ}
    (h : p.Holds M returned thrown held) (h' : p.Holds N returned' thrown' held') :
    p.Holds (M.prod N) (fun a held => returned a held.1 ∧ returned' a held.2)
      (fun e held => thrown e held.1 ∧ thrown' e held.2) (held, held') := by
  induction p generalizing held held' with
  | pure a => exact ⟨h, h'⟩
  | throw e => exact ⟨h, h'⟩
  | call c next ih => exact ⟨⟨h.1, h'.1⟩, fun s => ih s (h.2 s) (h'.2 s)⟩
  | ask next ih => exact fun r => ih r (h r) (h' r)

/-! ## Programs over more commands and a greater state -/

variable {κ' σ' : Type}

/-- The program with its commands among others, in a state of which it sees a part. -/
def lift (f : κ → κ') (view : σ' → σ) : Program κ σ ρ ε α → Program κ' σ' ρ ε α
  | .pure a => .pure a
  | .throw e => .throw e
  | .call c next => .call (f c) fun s => (next (view s)).lift f view
  | .ask next => .ask fun r => (next r).lift f view

/-- What is held is held there too, under another name. -/
theorem Holds.lift {M' : Memory κ' σ' ψ} {f : κ → κ'} {view : σ' → σ} {g : φ → ψ}
    {returned' : α → ψ → Prop} {thrown' : ε → ψ → Prop} (h : p.Holds M returned thrown held)
    (hissues : ∀ held c, M.issues held c → M'.issues (g held) (f c))
    (hadvance : ∀ held c s, M'.advance (g held) (f c) s = g (M.advance held c (view s)))
    (hreturned : ∀ a held, returned a held → returned' a (g held))
    (hthrown : ∀ e held, thrown e held → thrown' e (g held)) :
    (p.lift f view).Holds M' returned' thrown' (g held) := by
  induction p generalizing held with
  | pure a => exact hreturned a held h
  | throw e => exact hthrown e held h
  | call c next ih =>
    refine ⟨hissues held c h.1, ?_⟩
    intro s
    rw [hadvance]
    exact ih (view s) (h.2 (view s))
  | ask next ih => exact fun r => ih r (h r)

end Program

namespace Pool

variable {κ σ ρ ε α ι η φ : Type} [Executes κ σ] {S : System κ σ ρ ε α ι η} {M : Memory κ σ φ}
  {start : φ} {returned : ι → α → φ → Prop} {thrown : ι → ε → φ → Prop}
  {I : (ℕ → φ) → σ → Prop} {P : Pool κ σ ρ ε α ι}

/-- The programs in progress hold what they do, and the invariant relates it to the state. -/
structure Holding (M : Memory κ σ φ) (start : φ) (returned : ι → α → φ → Prop)
    (thrown : ι → ε → φ → Prop) (I : (ℕ → φ) → σ → Prop) (held : ℕ → φ) (P : Pool κ σ ρ ε α ι) :
    Prop where
  programs : ∀ (i : ℕ) request p, P.procs[i]? = some (request, p) →
    p.Holds M (returned request) (thrown request) (held i)
  idle : ∀ i, P.procs.length ≤ i → held i = start
  invariant : I held P.state

/-- What a schedule leaves each program with. -/
def heldAfter (S : System κ σ ρ ε α ι η) (M : Memory κ σ φ) (held : ℕ → φ)
    (P : Pool κ σ ρ ε α ι) (schedule : List (Action ρ ι η)) (i : ℕ) : φ :=
  M.recall (held i) (P.commandsOf S i schedule)

/-- A program that executes a command is the only one for which something changes. -/
theorem heldAfter_call {held : ℕ → φ} {i : ℕ} {reply : ρ} {request : ι} {c : κ}
    {next : σ → Program κ σ ρ ε α} (hget : P.procs[i]? = some (request, .call c next)) :
    heldAfter S M held P [.advance i reply] =
      Function.update held i (M.advance (held i) c P.state) := by
  funext j
  by_cases hj : j = i
  · subst hj
    simp [heldAfter, commandsOf, command?, hget, Program.command?, Memory.recall]
  · simp [heldAfter, commandsOf, Ne.symm hj, Function.update_of_ne hj, Memory.recall]

theorem heldAfter_none {held : ℕ → φ} {a : Action ρ ι η} (h : P.command? a = none) :
    heldAfter S M held P [a] = held := by
  funext j
  cases a with
  | start request => rfl
  | environment e => rfl
  | advance i reply => simp [heldAfter, commandsOf, h, Memory.recall]

/-- Every step keeps an invariant that commands keep of programs that hold what they need. -/
theorem Holding.act {held : ℕ → φ} (h : P.Holding M start returned thrown I held)
    (hprogram : ∀ request,
      (S.program request).Holds M (returned request) (thrown request) start)
    (hexec : ∀ held i c s, I held s → M.issues (held i) c →
      I (Function.update held i (M.advance (held i) c s)) (exec c s))
    (henvironment : ∀ held e s, I held s → I held (S.environment e s)) (a : Action ρ ι η) :
    (P.act S a).Holding M start returned thrown I (heldAfter S M held P [a]) := by
  cases a with
  | start request =>
    rw [heldAfter_none rfl]
    refine ⟨?_, ?_, h.invariant⟩
    · intro i request' p hget
      rw [Pool.act, List.getElem?_append] at hget
      split_ifs at hget with hi
      · exact h.programs i request' p hget
      · rw [List.getElem?_singleton] at hget
        split_ifs at hget
        cases hget
        rw [h.idle i (by omega)]
        exact hprogram request
    · intro i hi
      rw [Pool.act, List.length_append] at hi
      exact h.idle i (by omega)
  | environment e =>
    rw [heldAfter_none rfl]
    exact ⟨h.programs, h.idle, henvironment held e P.state h.invariant⟩
  | advance i reply =>
    cases hget : P.procs[i]? with
    | none =>
      have hsame : P.act S (.advance i reply) = P := by simp [Pool.act, hget]
      rw [heldAfter_none (by simp [command?, hget]), hsame]
      exact h
    | some entry =>
      obtain ⟨request, p⟩ := entry
      have hact : P.act S (.advance i reply) =
          { state := p.after P.state
            procs := P.procs.set i (request, p.next reply P.state) } := by
        simp [Pool.act, hget]
      have hi := (List.getElem?_eq_some_iff.mp hget).1
      have hp := h.programs i request p hget
      have hcommand : P.command? (.advance i reply : Action ρ ι η) = p.command? := by
        simp [command?, hget]
      -- the other programs hold what they held, and the program that advances is looked at alone
      have hothers : ∀ held', (∀ j, j ≠ i → held' j = held j) →
          (p.next reply P.state).Holds M (returned request) (thrown request) (held' i) →
            I held' (p.after P.state) →
              (P.act S (.advance i reply)).Holding M start returned thrown I held' := by
        intro held' hsame hnext hinv
        rw [hact]
        refine ⟨?_, ?_, hinv⟩
        · intro j request' q hq
          by_cases hj : j = i
          · subst hj
            rw [List.getElem?_set_self hi] at hq
            cases hq
            exact hnext
          · rw [List.getElem?_set_ne (Ne.symm hj)] at hq
            rw [hsame j hj]
            exact h.programs j request' q hq
        · intro j hj
          rw [List.length_set] at hj
          rw [hsame j (by omega)]
          exact h.idle j hj
      cases p with
      | pure a =>
        rw [heldAfter_none (hcommand.trans rfl)]
        exact hothers held (fun _ _ => rfl) hp h.invariant
      | throw e =>
        rw [heldAfter_none (hcommand.trans rfl)]
        exact hothers held (fun _ _ => rfl) hp h.invariant
      | ask next =>
        rw [heldAfter_none (hcommand.trans rfl)]
        exact hothers held (fun _ _ => rfl) (hp reply) h.invariant
      | call c next =>
        rw [heldAfter_call hget]
        apply hothers
        · exact fun j hj => Function.update_of_ne hj _ _
        · rw [Function.update_self]
          exact hp.2 P.state
        · exact hexec held i c P.state h.invariant hp.1

/-- The invariant holds after every schedule, of what the commands of the schedule have left each
program with. -/
theorem holding_run (hprogram : ∀ request,
      (S.program request).Holds M (returned request) (thrown request) start)
    (hexec : ∀ held i c s, I held s → M.issues (held i) c →
      I (Function.update held i (M.advance (held i) c s)) (exec c s))
    (henvironment : ∀ held e s, I held s → I held (S.environment e s)) {s : σ}
    (hstart : I (fun _ => start) s) (schedule : List (Action ρ ι η)) :
    ((idle s).run S schedule).Holding M start returned thrown I
      (heldAfter S M (fun _ => start) (idle s) schedule) := by
  have hrun : ∀ (P : Pool κ σ ρ ε α ι) held, P.Holding M start returned thrown I held →
      (P.run S schedule).Holding M start returned thrown I (heldAfter S M held P schedule) := by
    induction schedule with
    | nil => exact fun P held h => h
    | cons a schedule ih =>
      intro P held h
      have hlater : heldAfter S M held P (a :: schedule) =
          heldAfter S M (heldAfter S M held P [a]) (P.act S a) schedule := by
        funext i
        rw [heldAfter, commandsOf_cons, Memory.recall, List.foldl_append]
        rfl
      rw [run_cons, hlater]
      exact ih _ _ (h.act hprogram hexec henvironment a)
  exact hrun _ _ ⟨fun i request p hget => by simp at hget, fun _ _ => rfl, hstart⟩

end Pool
end AtomicProgram
