import Realmroot.Library.Pool

/-!
# What is taken once

Something is free at first, and a command that takes it leaves it taken for good. Programs that
return only when they have taken it, and others that leave it alone as long as it is free, are in
progress in any number. At most one of them has then taken it, and no other one returns.
-/

namespace AtomicProgram

/-- What can be taken once: when it is free, which commands take it, and what holds from then
on. -/
structure Claim (κ σ : Type) where
  free : σ → Prop
  takes : κ → σ → Prop
  kept : κ → σ → Prop

namespace Program

variable {κ σ ρ ε α β : Type} [Executes κ σ] (C : Claim κ σ)

/-- The program takes nothing any more, and what it returns is reported. -/
def Reports (Q : α → Prop) : Program κ σ ρ ε α → Prop
  | .pure a => Q a
  | .throw _ => True
  | .ask next => ∀ reply, (next reply).Reports Q
  | .call c next => ∀ s, ¬ C.takes c s ∧ (next s).Reports Q

/-- The program returns only after a command of it has taken what is free, one that it uses for
that, and it returns what is reported of the command. -/
def Claims (U : κ → Prop) (R : κ → α → Prop) : Program κ σ ρ ε α → Prop
  | .pure _ => False
  | .throw _ => True
  | .ask next => ∀ reply, (next reply).Claims U R
  | .call c next => ∀ s,
    (C.takes c s ∧ U c ∧ (next s).Reports C (R c)) ∨
      (¬ C.takes c s ∧ (C.free s → C.free (exec c s)) ∧ (next s).Claims U R)

/-- As long as it is free, the program leaves it so. -/
def Spares : Program κ σ ρ ε α → Prop
  | .pure _ => True
  | .throw _ => True
  | .ask next => ∀ reply, (next reply).Spares
  | .call c next => ∀ s, ¬ C.takes c s ∧ (C.free s → C.free (exec c s) ∧ (next s).Spares)

end Program

namespace Pool

variable {κ σ ρ ε α ι η : Type} [Executes κ σ]

/-- The obligations of a system for a claim that some of its requests make. -/
structure Claimable (C : Claim κ σ) (wants : ι → Prop) (U : ι → κ → Prop)
    (R : ι → κ → α → Prop)
    (S : System κ σ ρ ε α ι η) : Prop where
  program : ∀ request, wants request → (S.program request).Claims C (U request) (R request)
  spares : ∀ request, ¬ wants request → (S.program request).Spares C
  takes : ∀ c s, C.takes c s → C.free s
  taken : ∀ c s, C.takes c s → ¬ C.free (exec c s) ∧ C.kept c (exec c s)
  exec : ∀ (c : κ) s, ¬ C.free s →
    ¬ C.free (exec c s) ∧ ∀ taker, C.kept taker s → C.kept taker (exec c s)
  environment : ∀ e s,
    (C.free s → C.free (S.environment e s)) ∧
      (¬ C.free s → ¬ C.free (S.environment e s) ∧
        ∀ taker, C.kept taker s → C.kept taker (S.environment e s))

/-- Every call that wants what can be taken has yet to take it. -/
def Waiting (C : Claim κ σ) (wants : ι → Prop) (U : ι → κ → Prop)
    (R : ι → κ → α → Prop)
    (entry : ι × Program κ σ ρ ε α) : Prop :=
  wants entry.1 → entry.2.Claims C (U entry.1) (R entry.1)

/-- One call has taken it, with a command of the commands. -/
structure Holder (C : Claim κ σ) (wants : ι → Prop) (U : ι → κ → Prop)
    (R : ι → κ → α → Prop) (k : ℕ) (c : κ)
    (P : Pool κ σ ρ ε α ι) : Prop where
  taken : ¬ C.free P.state
  kept : C.kept c P.state
  holder : ∃ entry, P.procs[k]? = some entry ∧ wants entry.1 ∧ U entry.1 c ∧
    entry.2.Reports C (R entry.1 c)
  others : ∀ i entry, i ≠ k → P.procs[i]? = some entry → Waiting C wants U R entry

/-- It is free, and no call takes it but by a command that claims it. -/
structure Free (C : Claim κ σ) (wants : ι → Prop) (U : ι → κ → Prop)
    (R : ι → κ → α → Prop)
    (P : Pool κ σ ρ ε α ι) : Prop where
  free : C.free P.state
  waiting : ∀ entry ∈ P.procs, Waiting C wants U R entry
  sparing : ∀ entry ∈ P.procs, ¬ wants entry.1 → entry.2.Spares C

/-- It was taken before. -/
structure Gone (C : Claim κ σ) (wants : ι → Prop) (U : ι → κ → Prop)
    (R : ι → κ → α → Prop)
    (P : Pool κ σ ρ ε α ι) : Prop where
  taken : ¬ C.free P.state
  waiting : ∀ entry ∈ P.procs, Waiting C wants U R entry

variable {C : Claim κ σ} {wants : ι → Prop} {U : ι → κ → Prop} {R : ι → κ → α → Prop}
  {S : System κ σ ρ ε α ι η} {P : Pool κ σ ρ ε α ι}

/-- A step that takes nothing. -/
def Idle (C : Claim κ σ) (P : Pool κ σ ρ ε α ι) (a : Action ρ ι η) : Prop :=
  ∀ c, P.command? a = some c → ¬ C.takes c P.state

/-- An entry of the pool after an action is an entry as it was, an entry after its next step, or
one that has just started. -/
theorem getElem?_act {a : Action ρ ι η} {j : ℕ} {entry : ι × Program κ σ ρ ε α}
    (h : (P.act S a).procs[j]? = some entry) :
    P.procs[j]? = some entry ∨
      (∃ reply p, a = .advance j reply ∧ P.procs[j]? = some (entry.1, p) ∧
        entry.2 = p.next reply P.state) ∨
      j = P.procs.length ∧ entry.2 = S.program entry.1 := by
  cases a with
  | start request =>
    have happend : (P.procs ++ [(request, S.program request)])[j]? = some entry := h
    rcases Nat.lt_trichotomy j P.procs.length with hj | rfl | hj
    · rw [List.getElem?_append_left hj] at happend
      exact Or.inl happend
    · rw [List.getElem?_concat_length, Option.some.injEq] at happend
      subst happend
      exact Or.inr (Or.inr ⟨rfl, rfl⟩)
    · rw [List.getElem?_eq_none (by simp; omega)] at happend
      cases happend
  | environment e => exact Or.inl h
  | advance i reply =>
    cases hget : P.procs[i]? with
    | none =>
      simp only [act, hget] at h
      exact Or.inl h
    | some old =>
      have hset : (P.procs.set i (old.1, old.2.next reply P.state))[j]? = some entry := by
        simpa only [act, hget] using h
      by_cases hij : i = j
      · subst hij
        have hlt : i < P.procs.length := (List.getElem?_eq_some_iff.mp hget).1
        rw [List.getElem?_set_self hlt, Option.some.injEq] at hset
        subst hset
        exact Or.inr (Or.inl ⟨reply, old.2, rfl, hget, rfl⟩)
      · rw [List.getElem?_set_ne hij] at hset
        exact Or.inl hset

omit [Executes κ σ] in
/-- The next command of a program is the one that its step executes. -/
theorem command?_advance {i : ℕ} {reply : ρ} {request : ι} {p : Program κ σ ρ ε α}
    (hget : P.procs[i]? = some (request, p)) :
    P.command? (.advance i reply : Action ρ ι η) = p.command? := by
  simp [command?, hget]

/-- A call that waits still waits after its next step, when that takes nothing. -/
theorem Waiting.next {request : ι} {p : Program κ σ ρ ε α} (h : Waiting C wants U R (request, p))
    {s : σ} (hs : ∀ c, p.command? = some c → ¬ C.takes c s) (reply : ρ) :
    Waiting C wants U R (request, p.next reply s) := by
  intro hwants
  have hclaims := h hwants
  cases p with
  | pure a => exact hclaims
  | throw e => trivial
  | ask next => exact hclaims reply
  | call c next =>
    rcases hclaims s with ⟨htakes, -⟩ | ⟨-, -, hnext⟩
    · exact absurd htakes (hs c rfl)
    · exact hnext

section Claimable

variable (hS : Claimable C wants U R S)

include hS

/-- Calls that wait go on to wait while nothing is taken. -/
theorem waiting_act {a : Action ρ ι η} (hidle : Idle C P a) {j : ℕ}
    (h : ∀ entry, P.procs[j]? = some entry → Waiting C wants U R entry)
    {entry : ι × Program κ σ ρ ε α} (hentry : (P.act S a).procs[j]? = some entry) :
    Waiting C wants U R entry := by
  rcases getElem?_act hentry with hold | ⟨reply, p, rfl, hget, hnext⟩ | ⟨-, hstart⟩
  · exact h entry hold
  · have hwaiting := (h _ hget).next (fun c hc => hidle c ((command?_advance hget).trans hc)) reply
    rwa [← hnext] at hwaiting
  · intro hwants
    rw [hstart]
    exact hS.program entry.1 hwants

omit hS [Executes κ σ] in
/-- What is not free cannot be taken. -/
theorem idle_of_taken (htakes : ∀ c s, C.takes c s → C.free s) (h : ¬ C.free P.state)
    (a : Action ρ ι η) : Idle C P a := fun c _ htaken => h (htakes c P.state htaken)

/-- What is taken stays taken, and what holds of it is kept. -/
theorem taken_act (h : ¬ C.free P.state) (a : Action ρ ι η) :
    ¬ C.free (P.act S a).state ∧
      ∀ taker, C.kept taker P.state → C.kept taker (P.act S a).state := by
  cases hc : P.command? a with
  | some c =>
    rw [act_state S hc]
    exact hS.exec c P.state h
  | none =>
    cases a with
    | environment e => exact (hS.environment e P.state).2 h
    | start request => exact ⟨h, fun _ hkept => hkept⟩
    | advance i reply =>
      rw [act_state_of_none hc (by simp)]
      exact ⟨h, fun _ hkept => hkept⟩

theorem Gone.act (h : Gone C wants U R P) (a : Action ρ ι η) : Gone C wants U R (P.act S a) where
  taken := (taken_act hS h.taken a).1
  waiting entry hentry := by
    obtain ⟨j, hj⟩ := List.getElem?_of_mem hentry
    exact waiting_act hS (idle_of_taken hS.takes h.taken a)
      (fun old hold => h.waiting old (List.mem_of_getElem? hold)) hj

/-- What was taken before the schedule is taken by none of its calls. -/
theorem Gone.run (h : Gone C wants U R P) (schedule : List (Action ρ ι η)) :
    Gone C wants U R (P.run S schedule) := by
  induction schedule generalizing P with
  | nil => exact h
  | cons a schedule ih => exact ih (h.act hS a)

theorem Holder.act {k : ℕ} {c : κ} (h : Holder C wants U R k c P) (a : Action ρ ι η) :
    Holder C wants U R k c (P.act S a) := by
  obtain ⟨htaken, hkept⟩ := taken_act hS h.taken a
  have hidle := idle_of_taken hS.takes h.taken a
  refine ⟨htaken, hkept c h.kept, ?_, ?_⟩
  · obtain ⟨entry, hget, hwants, huses, hreports⟩ := h.holder
    have hlt : k < P.procs.length := (List.getElem?_eq_some_iff.mp hget).1
    have hlt' : k < (P.act S a).procs.length := by
      cases a with
      | start request =>
        have hlength : (P.procs ++ [(request, S.program request)]).length =
            P.procs.length + 1 := by simp
        exact hlength ▸ Nat.lt_succ_of_lt hlt
      | environment e => exact hlt
      | advance i reply =>
        rw [Pool.act]
        split
        · rwa [List.length_set]
        · exact hlt
    refine ⟨(P.act S a).procs[k], List.getElem?_eq_getElem hlt', ?_⟩
    rcases getElem?_act (List.getElem?_eq_getElem hlt') with hold | ⟨reply, p, rfl, hp, hnext⟩ |
        ⟨hk, -⟩
    · rw [hget, Option.some.injEq] at hold
      rw [← hold]
      exact ⟨hwants, huses, hreports⟩
    · rw [hget, Option.some.injEq] at hp
      subst hp
      refine ⟨hwants, huses, ?_⟩
      rw [hnext]
      cases p with
      | pure a => exact hreports
      | throw e => exact hreports
      | ask next => exact hreports reply
      | call c' next => exact (hreports P.state).2
    · omega
  · intro i entry hi hentry
    exact waiting_act hS hidle (h.others i · hi) hentry

theorem Holder.run {k : ℕ} {c : κ} (h : Holder C wants U R k c P)
    (schedule : List (Action ρ ι η)) : Holder C wants U R k c (P.run S schedule) := by
  induction schedule generalizing P with
  | nil => exact h
  | cons a schedule ih => exact ih (h.act hS a)

/-- A step in which nothing is taken. -/
theorem Free.act_idle (h : Free C wants U R P) {a : Action ρ ι η} (hidle : Idle C P a) :
    Free C wants U R (P.act S a) where
  free := by
    cases a with
    | start request => exact h.free
    | environment e => exact (hS.environment e P.state).1 h.free
    | advance i reply =>
      cases hget : P.procs[i]? with
      | none => simpa only [Pool.act, hget] using h.free
      | some entry =>
        obtain ⟨request, p⟩ := entry
        have hmem := List.mem_of_getElem? hget
        simp only [Pool.act, hget]
        cases p with
        | pure a => exact h.free
        | throw e => exact h.free
        | ask next => exact h.free
        | call c next =>
          by_cases hwants : wants request
          · rcases h.waiting _ hmem hwants P.state with ⟨htakes, -⟩ | ⟨-, hfree, -⟩
            · exact absurd htakes (hidle c (command?_advance hget))
            · exact hfree h.free
          · exact ((h.sparing _ hmem hwants P.state).2 h.free).1
  waiting entry hentry := by
    obtain ⟨j, hj⟩ := List.getElem?_of_mem hentry
    exact waiting_act hS hidle (fun old hold => h.waiting old (List.mem_of_getElem? hold)) hj
  sparing entry hentry hwants := by
    obtain ⟨j, hj⟩ := List.getElem?_of_mem hentry
    rcases getElem?_act hj with hold | ⟨reply, p, rfl, hget, hnext⟩ | ⟨-, hstart⟩
    · exact h.sparing entry (List.mem_of_getElem? hold) hwants
    · have hspares := h.sparing _ (List.mem_of_getElem? hget) hwants
      rw [hnext]
      cases p with
      | pure a => trivial
      | throw e => trivial
      | ask next => exact hspares reply
      | call c next => exact ((hspares P.state).2 h.free).2
    · rw [hstart]
      exact hS.spares entry.1 hwants

/-- A step in which something is taken. -/
theorem Free.act_takes (h : Free C wants U R P) {a : Action ρ ι η} {c : κ}
    (hc : P.command? a = some c) (htakes : C.takes c P.state) :
    ∃ k, Holder C wants U R k c (P.act S a) := by
  cases a with
  | start request => cases hc
  | environment e => cases hc
  | advance k reply =>
    obtain ⟨⟨request, p⟩, hget, hcommand⟩ := Option.bind_eq_some_iff.mp hc
    have hmem := List.mem_of_getElem? hget
    cases p with
    | pure a => cases hcommand
    | throw e => cases hcommand
    | ask next => cases hcommand
    | call c' next =>
      cases hcommand
      have hwants : wants request := by
        by_contra hspared
        exact (h.sparing _ hmem hspared P.state).1 htakes
      obtain ⟨htaken, hkept⟩ := hS.taken c P.state htakes
      have hstate : ((P.act S (.advance k reply)).state) = exec c P.state := act_state S hc
      obtain ⟨huses, hreports⟩ : U request c ∧ (next P.state).Reports C (R request c) := by
        rcases h.waiting _ hmem hwants P.state with ⟨-, huses, hreports⟩ | ⟨hnot, -, -⟩
        · exact ⟨huses, hreports⟩
        · exact absurd htakes hnot
      refine ⟨k, ?_, ?_, ⟨(request, next P.state), ?_, hwants, huses, hreports⟩, ?_⟩
      · rwa [hstate]
      · rwa [hstate]
      · have hlt : k < P.procs.length := (List.getElem?_eq_some_iff.mp hget).1
        have hprocs : (P.act S (.advance k reply)).procs =
            P.procs.set k (request, next P.state) := by
          simp only [Pool.act, hget, Program.next]
        rw [hprocs, List.getElem?_set_self hlt]
      · intro i entry hi hentry
        rcases getElem?_act hentry with hold | ⟨_, _, ha, -, -⟩ | ⟨-, hstart⟩
        · exact h.waiting entry (List.mem_of_getElem? hold)
        · cases ha
          exact absurd rfl hi
        · intro hentryWants
          rw [hstart]
          exact hS.program entry.1 hentryWants

/-- What is free at the start is free at the end, or one call has taken it, and every other one
still waits. -/
theorem Free.run (h : Free C wants U R P) (schedule : List (Action ρ ι η)) :
    Free C wants U R (P.run S schedule) ∨
      ∃ k c s, (c, s) ∈ P.commands S schedule ∧ C.takes c s ∧
        Holder C wants U R k c (P.run S schedule) := by
  induction schedule generalizing P with
  | nil => exact Or.inl h
  | cons a schedule ih =>
    by_cases hidle : Idle C P a
    · rcases ih (h.act_idle hS hidle) with hfree | ⟨k, c, s, hmem, htakes, hholder⟩
      · exact Or.inl hfree
      · exact Or.inr ⟨k, c, s, List.mem_append_right _ hmem, htakes, hholder⟩
    · obtain ⟨c, hc, htakes⟩ : ∃ c, P.command? a = some c ∧ C.takes c P.state := by
        unfold Idle at hidle
        push Not at hidle
        exact hidle
      obtain ⟨k, hholder⟩ := h.act_takes hS hc htakes
      refine Or.inr ⟨k, c, P.state, ?_, htakes, hholder.run hS schedule⟩
      rw [commands, hc]
      exact List.mem_append_left _ List.mem_cons_self

end Claimable

theorem free_idle {s : σ} (h : C.free s) : Free C wants U R (idle s : Pool κ σ ρ ε α ι) :=
  ⟨h, fun _ hentry => absurd hentry List.not_mem_nil,
    fun _ hentry => absurd hentry List.not_mem_nil⟩

theorem gone_idle {s : σ} (h : ¬ C.free s) : Gone C wants U R (idle s : Pool κ σ ρ ε α ι) :=
  ⟨h, fun _ hentry => absurd hentry List.not_mem_nil⟩

/-- A call that waits has not returned. -/
theorem Waiting.not_returned {request : ι} {p : Program κ σ ρ ε α}
    (h : Waiting C wants U R (request, p)) (hwants : wants request) (a : α) :
    p.result? ≠ some (.ok a) := by
  intro hresult
  cases p with
  | pure b => exact h hwants
  | throw e => cases hresult
  | ask next => cases hresult
  | call c next => cases hresult

end Pool
end AtomicProgram
