import Realmroot.Library.Contract

/-!
# Runs of one program

A program runs alone when only the environment moves the state between its
commands. What moves it, and what is replied, is given as a sequence; a
statement about all runs of a program alone quantifies over both sequences.
-/

namespace AtomicProgram.Program

variable {κ σ ρ ε α β : Type} [Executes κ σ]

/-- Between its commands: what the environment does, and what is replied. -/
structure Surroundings (σ ρ : Type) where
  elapse : ℕ → σ → σ
  reply : ℕ → ρ

/-- The result of the program and the state in which it ends. -/
def execute (around : Surroundings σ ρ) : ℕ → Program κ σ ρ ε α → σ → Except ε α × σ
  | _, .pure a, s => (.ok a, s)
  | _, .throw e, s => (.error e, s)
  | n, .call c next, s =>
    execute around (n + 1) (next (around.elapse n s)) (exec c (around.elapse n s))
  | n, .ask next, s => execute around (n + 1) (next (around.reply n)) (around.elapse n s)

/-- The contract of a program that runs alone, which guarantees nothing to others. -/
def alone (κ : Type) (moves : σ → σ → Prop) (answers : ρ → Prop) : Contract κ σ ρ where
  rely := moves
  answers := answers
  allowed _ _ := True
  guarantee _ _ := True

/-- Every run alone ends as the contract of the program says. -/
theorem Meets.execute {moves : σ → σ → Prop} {answers : ρ → Prop}
    {post : Except ε α → σ → Prop} (around : Surroundings σ ρ)
    (hmoves : ∀ n s, moves s (around.elapse n s)) (hanswers : ∀ n, answers (around.reply n))
    {p : Program κ σ ρ ε α} {s : σ} (h : p.Meets (alone κ moves answers) post s) (n : ℕ) :
    post (p.execute around n s).1 (p.execute around n s).2 := by
  induction p generalizing s n with
  | pure a => exact h
  | throw e => exact h
  | call c next ih => exact ih _ (h _ (hmoves n s) trivial).2 (n + 1)
  | ask next ih => exact ih _ (h _ _ (hanswers n) (hmoves n s)) (n + 1)

/-! ## Every run alone -/

/-- A run depends only on what surrounds it from its beginning on. -/
theorem execute_congr {around around' : Surroundings σ ρ} {p : Program κ σ ρ ε α} {n : ℕ} {s : σ}
    (helapse : ∀ m, n ≤ m → around.elapse m = around'.elapse m)
    (hreply : ∀ m, n ≤ m → around.reply m = around'.reply m) :
    p.execute around n s = p.execute around' n s := by
  induction p generalizing n s with
  | pure a => rfl
  | throw e => rfl
  | call c next ih =>
    simp only [execute, helapse n le_rfl]
    exact ih _ (fun m hm => helapse m (by omega)) fun m hm => hreply m (by omega)
  | ask next ih =>
    simp only [execute, helapse n le_rfl, hreply n le_rfl]
    exact ih _ (fun m hm => helapse m (by omega)) fun m hm => hreply m (by omega)

theorem execute_bind_pure {around : Surroundings σ ρ} (p : Program κ σ ρ ε α) (f : α → β)
    (n : ℕ) (s : σ) :
    (p.bind fun a => .pure (f a)).execute around n s =
      ((p.execute around n s).1.map f, (p.execute around n s).2) := by
  induction p generalizing n s with
  | pure a => rfl
  | throw e => rfl
  | call c next ih => exact ih _ _ _
  | ask next ih => exact ih _ _ _

open Classical in
/-- The same surroundings, except that the state `s` becomes `t` and `r` is replied at the
beginning. -/
noncomputable def Surroundings.starting (around : Surroundings σ ρ) (n : ℕ) (s t : σ) (r : ρ) :
    Surroundings σ ρ where
  elapse m u := if m = n ∧ u = s then t else around.elapse m u
  reply m := if m = n then r else around.reply m

section Starting

variable {around : Surroundings σ ρ} {n : ℕ} {s t : σ} {r : ρ}

theorem Surroundings.starting_elapse : (around.starting n s t r).elapse n s = t := by
  simp [starting]

theorem Surroundings.starting_reply : (around.starting n s t r).reply n = r := by
  simp [starting]

theorem execute_starting (p : Program κ σ ρ ε α) (u : σ) :
    p.execute (around.starting n s t r) (n + 1) u = p.execute around (n + 1) u := by
  apply execute_congr
  · intro m hm
    have hne : m ≠ n := by omega
    funext v
    simp [Surroundings.starting, hne]
  · intro m hm
    have hne : m ≠ n := by omega
    simp [Surroundings.starting, hne]

theorem Surroundings.starting_moves {moves : σ → σ → Prop}
    (hmoves : ∀ m u, moves u (around.elapse m u)) (hst : moves s t) (m : ℕ) (u : σ) :
    moves u ((around.starting n s t r).elapse m u) := by
  unfold starting
  dsimp only
  split_ifs with hstart
  · rw [hstart.2]
    exact hst
  · exact hmoves m u

theorem Surroundings.starting_answers {answers : ρ → Prop}
    (hanswers : ∀ m, answers (around.reply m)) (hr : answers r) (m : ℕ) :
    answers ((around.starting n s t r).reply m) := by
  unfold starting
  dsimp only
  split_ifs
  · exact hr
  · exact hanswers m

end Starting

/-- What every run alone establishes, the contract says. -/
theorem meets_of_execute {moves : σ → σ → Prop} {answers : ρ → Prop}
    {post : Except ε α → σ → Prop} (hrefl : ∀ s, moves s s) (r₀ : ρ) (hr₀ : answers r₀)
    {p : Program κ σ ρ ε α} {s : σ} (n : ℕ)
    (h : ∀ around : Surroundings σ ρ, (∀ m u, moves u (around.elapse m u)) →
      (∀ m, answers (around.reply m)) →
        post (p.execute around n s).1 (p.execute around n s).2) :
    p.Meets (alone κ moves answers) post s := by
  induction p generalizing s n with
  | pure a => exact h ⟨fun _ u => u, fun _ => r₀⟩ (fun _ u => hrefl u) fun _ => hr₀
  | throw e => exact h ⟨fun _ u => u, fun _ => r₀⟩ (fun _ u => hrefl u) fun _ => hr₀
  | call c next ih =>
    intro t hst _
    refine ⟨trivial, ih t (n + 1) fun around hmoves hanswers => ?_⟩
    have hrun := h (around.starting n s t r₀) (Surroundings.starting_moves hmoves hst)
      (Surroundings.starting_answers hanswers hr₀)
    simpa only [execute, Surroundings.starting_elapse, execute_starting] using hrun
  | ask next ih =>
    intro r t hr hst
    refine ih r (n + 1) fun around hmoves hanswers => ?_
    have hrun := h (around.starting n s t r) (Surroundings.starting_moves hmoves hst)
      (Surroundings.starting_answers hanswers hr)
    simpa only [execute, Surroundings.starting_elapse, Surroundings.starting_reply,
      execute_starting] using hrun

/-! ## Programs that only read -/

/-- The result of a program whose commands leave the state as it is. -/
def settled (r : ρ) : Program κ σ ρ ε α → σ → Except ε α
  | .pure a, _ => .ok a
  | .throw e, _ => .error e
  | .call _ next, s => (next s).settled r s
  | .ask next, s => (next r).settled r s

section Settled

variable {r : ρ} {s : σ}

omit [Executes κ σ] in
theorem settled_bind (p : Program κ σ ρ ε α) (f : α → Program κ σ ρ ε β) :
    (p.bind f).settled r s =
      match p.settled r s with
      | .ok a => (f a).settled r s
      | .error e => .error e := by
  induction p with
  | pure a => rfl
  | throw e => rfl
  | call c next ih => exact ih s
  | ask next ih => exact ih r

omit [Executes κ σ] in
theorem settled_mapEach (bs : List β) (f : β → Program κ σ ρ ε α) :
    (mapEach bs f).settled r s = bs.mapM fun b => (f b).settled r s := by
  induction bs with
  | nil => rfl
  | cons b bs ih =>
    rw [mapEach, settled_bind, List.mapM_cons]
    cases (f b).settled r s with
    | error e => rfl
    | ok a =>
      simp only [settled_bind, ih]
      cases bs.mapM fun b => (f b).settled r s <;> rfl

/-- A program whose commands leave the state as it is ends in its settled result, where the
contract lets it. -/
theorem Meets.settled {C : Contract κ σ ρ} {post : Except ε β → σ → Prop} {P : κ → Prop}
    (hrely : C.rely s s) (hanswers : C.answers r) (hallowed : ∀ c, P c → C.allowed c s)
    (hstill : ∀ c, P c → exec c s = s) {p : Program κ σ ρ ε α} {f : α → Program κ σ ρ ε β}
    (hp : p.Uses P) (h : (p.bind f).Meets C post s) {a : α} (ha : p.settled r s = .ok a) :
    (f a).Meets C post s := by
  induction p with
  | pure b =>
    cases ha
    exact h
  | throw e => cases ha
  | call c next ih =>
    have hnext := (h s hrely (hallowed c hp.1)).2
    rw [hstill c hp.1] at hnext
    exact ih s (hp.2 s) hnext ha
  | ask next ih => exact ih r (hp r) (h r s hanswers hrely) ha

end Settled

end AtomicProgram.Program
