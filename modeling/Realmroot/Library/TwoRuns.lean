import Realmroot.Library.Alone

/-!
# Two runs

Two programs are alike for a relation on states when they execute their commands in
step and, reading related states, make the same decisions. A relation that says which
parts of a state two runs have in common then bounds what a program can depend on.
-/

namespace AtomicProgram.Program

variable {κ σ ρ ε α β γ : Type} [Executes κ σ] {R : σ → σ → Prop}

/-- The two programs read related states in step, keep them related, and end alike:
both with an error, the same one, or both with values that are related. -/
def Alike (R : σ → σ → Prop) (Q : α → β → Prop) :
    Program κ σ ρ ε α → Program κ σ ρ ε β → Prop
  | .pure a, .pure b => Q a b
  | .throw e, .throw f => e = f
  | .call c next, .call d next' =>
    ∀ s t, R s t → R (exec c s) (exec d t) ∧ (next s).Alike R Q (next' t)
  | .ask next, .ask next' => ∀ r, (next r).Alike R Q (next' r)
  | _, _ => False

theorem Alike.bind {δ : Type} {Q : α → β → Prop} {Q' : γ → δ → Prop} {p : Program κ σ ρ ε α}
    {q : Program κ σ ρ ε β} {f : α → Program κ σ ρ ε γ} {g : β → Program κ σ ρ ε δ}
    (h : p.Alike R Q q) (hnext : ∀ a b, Q a b → (f a).Alike R Q' (g b)) :
    (p.bind f).Alike R Q' (q.bind g) := by
  induction p generalizing q with
  | pure a =>
    cases q with
    | pure b => exact hnext a b h
    | _ => exact h.elim
  | throw e =>
    cases q with
    | throw e' => exact h
    | _ => exact h.elim
  | call c next ih =>
    cases q with
    | call d next' =>
      intro s t hst
      exact ⟨(h s t hst).1, ih s (h s t hst).2⟩
    | _ => exact h.elim
  | ask next ih =>
    cases q with
    | ask next' =>
      intro r
      exact ih r (h r)
    | _ => exact h.elim

/-- Loops over the same entries are alike when their rounds are. -/
theorem Alike.mapEach {entries : List γ} {f g : γ → Program κ σ ρ ε α}
    (h : ∀ entry ∈ entries, (f entry).Alike R Eq (g entry)) :
    (mapEach entries f).Alike R Eq (mapEach entries g) := by
  induction entries with
  | nil => exact rfl
  | cons entry entries ih =>
    have hfirst := h entry List.mem_cons_self
    have hrest := ih fun later hlater => h later (List.mem_cons_of_mem entry hlater)
    apply hfirst.bind
    rintro a _ rfl
    apply hrest.bind
    rintro as _ rfl
    exact rfl

/-- Two runs of programs that are alike have the same result, whatever happens between
their commands, as long as it keeps the states related. -/
theorem Alike.execute {p q : Program κ σ ρ ε α} (h : p.Alike R Eq q)
    {around around' : Surroundings σ ρ} (hreply : around'.reply = around.reply)
    (hmoves : ∀ n s t, R s t → R (around.elapse n s) (around'.elapse n t)) {s t : σ} (hst : R s t)
    (n : ℕ) : (p.execute around n s).1 = (q.execute around' n t).1 := by
  induction p generalizing q s t n with
  | pure a =>
    cases q with
    | pure b => exact congrArg Except.ok h
    | _ => exact h.elim
  | throw e =>
    cases q with
    | throw e' => exact congrArg Except.error h
    | _ => exact h.elim
  | call c next ih =>
    cases q with
    | call d next' =>
      have hmoved := hmoves n s t hst
      have hstep := h _ _ hmoved
      exact ih _ hstep.2 hstep.1 (n + 1)
    | _ => exact h.elim
  | ask next ih =>
    cases q with
    | ask next' =>
      have hmoved := hmoves n s t hst
      rw [Program.execute, Program.execute, hreply]
      exact ih _ (h _) hmoved (n + 1)
    | _ => exact h.elim

end AtomicProgram.Program
