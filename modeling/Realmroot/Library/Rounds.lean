import Realmroot.Library.Contract

/-!
# Loops that number their rounds

A loop without a condition runs one round after another until a round ends it. Here it is given
the number of rounds that it may run at most, and says so when it would go on after them: where it
never says so, the number has no influence on it, and it is the loop without one.
-/

namespace AtomicProgram.Program

variable {κ σ ρ ε α β τ : Type}

/-! ## Counting commands -/

/-- On no path does the program execute more than so many of the commands that are counted. -/
def AtMost (counted : κ → Bool) : ℕ → Program κ σ ρ ε α → Prop
  | _, .pure _ => True
  | _, .throw _ => True
  | n, .call c next =>
    (counted c → 0 < n) ∧ ∀ s, (next s).AtMost counted (if counted c then n - 1 else n)
  | n, .ask next => ∀ r, (next r).AtMost counted n

section Counting

variable {counted : κ → Bool} {m n : ℕ} {p : Program κ σ ρ ε α}

theorem AtMost.mono (h : p.AtMost counted m) (hmn : m ≤ n) : p.AtMost counted n := by
  induction p generalizing m n with
  | pure a => trivial
  | throw e => trivial
  | call c next ih =>
    refine ⟨fun hc => Nat.lt_of_lt_of_le (h.1 hc) hmn, fun s => ih s (h.2 s) ?_⟩
    split_ifs <;> omega
  | ask next ih => exact fun r => ih r (h r) hmn

theorem AtMost.bind {f : α → Program κ σ ρ ε β} (hp : p.AtMost counted m)
    (hf : ∀ a, (f a).AtMost counted n) : (p.bind f).AtMost counted (m + n) := by
  induction p generalizing m with
  | pure a => exact (hf a).mono (by omega)
  | throw e => trivial
  | call c next ih =>
    constructor
    · intro hc
      have hm := hp.1 hc
      omega
    · intro s
      have hnext := ih s (hp.2 s)
      by_cases hc : counted c = true
      · have hm := hp.1 hc
        rw [if_pos hc] at hnext ⊢
        exact hnext.mono (by omega)
      · rw [if_neg hc] at hnext ⊢
        exact hnext
  | ask next ih => exact fun r => ih r (hp r)

theorem AtMost.tryCatch {handler : ε → Program κ σ ρ ε α} (hp : p.AtMost counted m)
    (hh : ∀ e, (handler e).AtMost counted n) : (p.tryCatch handler).AtMost counted (m + n) := by
  induction p generalizing m with
  | pure a => trivial
  | throw e => exact (hh e).mono (by omega)
  | call c next ih =>
    constructor
    · intro hc
      have hm := hp.1 hc
      omega
    · intro s
      have hnext := ih s (hp.2 s)
      by_cases hc : counted c = true
      · have hm := hp.1 hc
        rw [if_pos hc] at hnext ⊢
        exact hnext.mono (by omega)
      · rw [if_neg hc] at hnext ⊢
        exact hnext
  | ask next ih => exact fun r => ih r (hp r)

theorem Uses.atMost (h : p.Uses fun c => counted c = false) (n : ℕ) : p.AtMost counted n := by
  induction p with
  | pure a => trivial
  | throw e => trivial
  | call c next ih =>
    constructor
    · simp [h.1]
    · intro s
      simpa [h.1] using ih s (h.2 s)
  | ask next ih => exact fun r => ih r (h r)

/-- What is not counted may come before. -/
theorem Uses.atMost_bind {f : α → Program κ σ ρ ε β} (hp : p.Uses fun c => counted c = false)
    (hf : ∀ a, (f a).AtMost counted n) : (p.bind f).AtMost counted n :=
  ((hp.atMost 0).bind hf).mono (by omega)

/-- What is not counted may follow. -/
theorem AtMost.bind_uses {f : α → Program κ σ ρ ε β} (hp : p.AtMost counted n)
    (hf : ∀ a, (f a).Uses fun c => counted c = false) : (p.bind f).AtMost counted n :=
  hp.bind fun a => (hf a).atMost 0

end Counting

/-! ## Rounds -/

theorem returns_bind {R : β → Prop} {p : Program κ σ ρ ε α} {f : α → Program κ σ ρ ε β} :
    (p.bind f).Returns R ↔ p.Returns fun a => (f a).Returns R := by
  induction p with
  | pure a => rfl
  | throw e => rfl
  | call c next ih => exact forall_congr' ih
  | ask next ih => exact forall_congr' ih

theorem bind_congr_returns {Q : α → Prop} {p : Program κ σ ρ ε α} {f g : α → Program κ σ ρ ε β}
    (hp : p.Returns Q) (h : ∀ a, Q a → f a = g a) : p.bind f = p.bind g := by
  induction p with
  | pure a => exact h a hp
  | throw e => rfl
  | call c next ih =>
    simp only [call_bind]
    congr 1
    funext s
    exact ih s (hp s)
  | ask next ih =>
    simp only [ask_bind]
    congr 1
    funext r
    exact ih r (hp r)

/-- The rounds from one on, so many at most: a round leaves the state for the next one, or the
value with which the loop ends. `none` when there are rounds left to run. -/
def rounds (round : ℕ → τ → Program κ σ ρ ε (τ ⊕ β)) :
    ℕ → ℕ → τ → Program κ σ ρ ε (Option β)
  | 0, _, _ => .pure none
  | n + 1, i, state => (round i state).bind fun
    | .inl state => rounds round n (i + 1) state
    | .inr value => .pure (some value)

section Rounds

variable {round : ℕ → τ → Program κ σ ρ ε (τ ⊕ β)} {n i last : ℕ}

/-- Where no round from the last one on goes on, the loop ends. -/
theorem rounds_ends (h : ∀ i state, (round i state).Returns fun r => r.isLeft → i < last)
    (hi : i ≤ last) (hlast : last < i + n) (state : τ) :
    (rounds round n i state).Returns fun r => r.isSome := by
  induction n generalizing i state with
  | zero => omega
  | succ n ih =>
    apply (h i state).bind
    rintro (state | value) hgo
    · have hi := hgo rfl
      exact ih (by omega) (by omega) state
    · rfl

/-- A loop that ends runs the same rounds when it may run more. -/
theorem rounds_eq {state : τ} (h : (rounds round n i state).Returns fun r => r.isSome) {m : ℕ}
    (hnm : n ≤ m) : rounds round m i state = rounds round n i state := by
  induction n generalizing i state m with
  | zero => cases h
  | succ n ih =>
    obtain ⟨m, rfl⟩ : ∃ k, m = k + 1 := ⟨m - 1, by omega⟩
    apply bind_congr_returns (returns_bind.mp h)
    rintro (state | value) hrest
    · exact ih hrest (by omega)
    · rfl

theorem rounds_atMost {counted : κ → Bool} {k : ℕ}
    (h : ∀ i state, (round i state).AtMost counted k) (n i : ℕ) (state : τ) :
    (rounds round n i state).AtMost counted (n * k) := by
  induction n generalizing i state with
  | zero => trivial
  | succ n ih =>
    rw [Nat.succ_mul, Nat.add_comm]
    apply (h i state).bind
    rintro (state | value)
    · exact ih _ _
    · trivial

end Rounds

end AtomicProgram.Program
