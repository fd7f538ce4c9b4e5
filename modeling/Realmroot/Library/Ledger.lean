import Realmroot.Library.Alone
import Realmroot.Library.Phases

/-!
# Ledgers

A ledger is kept beside the state of a run: each command that executes is entered, with the state
in which it does. What the ledger says of the state is then an invariant of the two, and it is
enough that every command and every step of the surroundings keeps it.
-/

namespace AtomicProgram.Program

variable {κ σ ρ ε α φ τ : Type} [Executes κ σ]

/-- The states that a run alone passes through, the first one included, each with its ledger. -/
def passes (enter : τ → κ → σ → τ) (around : Surroundings σ ρ) :
    ℕ → Program κ σ ρ ε α → σ × τ → List (σ × τ)
  | _, .pure _, x => [x]
  | _, .throw _, x => [x]
  | n, .call c next, x =>
    x :: (around.elapse n x.1, x.2) ::
      passes enter around (n + 1) (next (around.elapse n x.1))
        (exec c (around.elapse n x.1), enter x.2 c (around.elapse n x.1))
  | n, .ask next, x =>
    x :: passes enter around (n + 1) (next (around.reply n)) (around.elapse n x.1, x.2)

/-- The state and the ledger in which the run ends. -/
def ends (enter : τ → κ → σ → τ) (around : Surroundings σ ρ) :
    ℕ → Program κ σ ρ ε α → σ × τ → σ × τ
  | _, .pure _, x => x
  | _, .throw _, x => x
  | n, .call c next, x =>
    ends enter around (n + 1) (next (around.elapse n x.1))
      (exec c (around.elapse n x.1), enter x.2 c (around.elapse n x.1))
  | n, .ask next, x => ends enter around (n + 1) (next (around.reply n)) (around.elapse n x.1, x.2)

variable {enter : τ → κ → σ → τ} {around : Surroundings σ ρ} {p : Program κ σ ρ ε α}
  {n : ℕ} {x : σ × τ}

/-- The ledger leaves the run as it is. -/
theorem ends_fst : (p.ends enter around n x).1 = (p.execute around n x.1).2 := by
  induction p generalizing n x with
  | pure a => rfl
  | throw e => rfl
  | call c next ih => exact ih _
  | ask next ih => exact ih _

/-- A run passes through where it ends. -/
theorem ends_mem_passes : p.ends enter around n x ∈ p.passes enter around n x := by
  induction p generalizing n x with
  | pure a => exact List.mem_singleton_self x
  | throw e => exact List.mem_singleton_self x
  | call c next ih => exact List.mem_cons_of_mem _ (List.mem_cons_of_mem _ (ih _))
  | ask next ih => exact List.mem_cons_of_mem _ (ih _)

/-- What holds of the state and the ledger in the beginning, and is kept by what the program may
issue and by its surroundings, holds all along. -/
theorem Issues.passes {inv : σ → Prop} {answers : ρ → Prop} {P : κ → Prop} {I : σ → τ → Prop}
    (hp : p.Issues inv answers P) (hanswers : ∀ n, answers (around.reply n))
    (hinv : ∀ s t, I s t → inv s) (helapse : ∀ n s t, I s t → I (around.elapse n s) t)
    (hexec : ∀ c s t, P c → I s t → I (exec c s) (enter t c s)) (hx : I x.1 x.2) :
    ∀ y ∈ p.passes enter around n x, I y.1 y.2 := by
  induction p generalizing n x with
  | pure a =>
    intro y hy
    rw [List.mem_singleton.mp hy]
    exact hx
  | throw e =>
    intro y hy
    rw [List.mem_singleton.mp hy]
    exact hx
  | call c next ih =>
    have hmoved := helapse n x.1 x.2 hx
    intro y hy
    rcases List.mem_cons.mp hy with rfl | hy
    · exact hx
    rcases List.mem_cons.mp hy with rfl | hy
    · exact hmoved
    · exact ih _ (hp.2 _ (hinv _ _ hmoved)) (hexec c _ _ hp.1 hmoved) y hy
  | ask next ih =>
    intro y hy
    rcases List.mem_cons.mp hy with rfl | hy
    · exact hx
    · exact ih _ (hp _ (hanswers n)) (helapse n x.1 x.2 hx) y hy

omit [Executes κ σ] in
/-- What a program that conforms to phases issues, when the phases do not matter for it. -/
theorem Conforms.issues_any {D : Phases κ σ ρ φ} {post : α → φ → Prop} {P : κ → Prop} {phase : φ}
    (h : p.Conforms D post phase) (hissues : ∀ phase c, D.issues phase c → P c) :
    p.Issues D.inv D.answers P := by
  induction p generalizing phase with
  | pure a => trivial
  | throw e => trivial
  | call c next ih => exact ⟨hissues phase c h.1, fun s hs => ih s (h.2 s hs)⟩
  | ask next ih => exact fun r hr => ih r (h r hr)

end AtomicProgram.Program
