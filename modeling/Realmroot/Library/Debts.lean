import Realmroot.Library.Followed
import Realmroot.Library.Promises

/-!
# Debts

A command may leave the state in debt: something is recorded in one place and not yet in another.
The program that executes it pays the debt before it ends. In every run, then, a debt that is
outstanding is owed by a program in progress, which has incurred it.
-/

namespace AtomicProgram

/-- Which debts are outstanding in a state, and which ones a command incurs. -/
structure Debts (κ σ δ : Type) where
  outstanding : σ → δ → Prop
  incurs : κ → σ → δ → Prop

namespace Program

variable {κ σ ρ ε α β δ : Type}

theorem Returns.tryCatch {Q : α → Prop} {p : Program κ σ ρ ε α}
    {handler : ε → Program κ σ ρ ε α} (hp : p.Returns Q) (hhandler : ∀ e, (handler e).Returns Q) :
    (p.tryCatch handler).Returns Q := by
  induction p with
  | pure a => exact hp
  | throw e => exact hhandler e
  | call c next ih => exact fun s => ih s (hp s)
  | ask next ih => exact fun r => ih r (hp r)

variable [Executes κ σ] {C : Contract κ σ ρ} {B : Debts κ σ δ}

/-- Whatever a command of the program incurs, the rest of the program pays. -/
def Pays (C : Contract κ σ ρ) (B : Debts κ σ δ) : Program κ σ ρ ε α → σ → Prop
  | .pure _, _ => True
  | .throw _, _ => True
  | .call c next, s => ∀ t, C.rely s t → C.allowed c t →
      (∀ d, B.incurs c t d → (next t).Meets C (fun _ u => ¬ B.outstanding u d) (exec c t)) ∧
        (next t).Pays C B (exec c t)
  | .ask next, s => ∀ r t, C.answers r → C.rely s t → (next r).Pays C B t

theorem Pays.moved (htrans : ∀ {s t u}, C.rely s t → C.rely t u → C.rely s u)
    {p : Program κ σ ρ ε α} {s t : σ} (h : p.Pays C B s) (hst : C.rely s t) : p.Pays C B t := by
  cases p with
  | pure a => trivial
  | throw e => trivial
  | call c next => exact fun u htu => h u (htrans hst htu)
  | ask next => exact fun r u hr htu => h r u hr (htrans hst htu)

/-- Commands that incur nothing. -/
theorem Uses.pays {p : Program κ σ ρ ε α} (hp : p.Uses fun c => ∀ s d, ¬ B.incurs c s d) (s : σ) :
    p.Pays C B s := by
  induction p generalizing s with
  | pure a => trivial
  | throw e => trivial
  | call c next ih =>
    intro t _ _
    exact ⟨fun d hd => absurd hd (hp.1 t d), ih t (hp.2 t) _⟩
  | ask next ih => exact fun r t _ _ => ih r (hp r) t

/-- Commands that incur nothing and change nothing that matters may stand in front. -/
theorem Quiet.pays_bind {P : κ → Prop} (hP : Quiet C P) {p : Program κ σ ρ ε α}
    {f : α → Program κ σ ρ ε β} {s : σ} (hfree : ∀ c, P c → ∀ s d, ¬ B.incurs c s d)
    (hp : p.Uses P) (hf : ∀ a t, C.rely s t → (f a).Pays C B t) : (p.bind f).Pays C B s := by
  induction p generalizing s with
  | pure a => exact hf a s (hP.refl s)
  | throw e => trivial
  | call c next ih =>
    intro t hst hc
    refine ⟨fun d hd => absurd hd (hfree c hp.1 t d), ih t (hp.2 t) ?_⟩
    intro a u htu
    exact hf a u (hP.trans hst (hP.trans (hP.moves c hp.1 t hc) htu))
  | ask next ih =>
    intro r t _ hst
    exact ih r (hp r) fun a u htu => hf a u (hP.trans hst htu)

/-- What comes after commands that incur nothing may build on what they establish. -/
theorem Meets.pays_bind {p : Program κ σ ρ ε α} {f : α → Program κ σ ρ ε β} {s : σ}
    (hp : p.Meets C (fun r t => ∀ a, r = .ok a → (f a).Pays C B t) s)
    (hfree : p.Uses fun c => ∀ s d, ¬ B.incurs c s d) : (p.bind f).Pays C B s := by
  induction p generalizing s with
  | pure a => exact hp a rfl
  | throw e => trivial
  | call c next ih =>
    intro t hst hc
    exact ⟨fun d hd => absurd hd (hfree.1 t d), ih t (hp t hst hc).2 (hfree.2 t)⟩
  | ask next ih => exact fun r t hr hst => ih r (hp r t hr hst) (hfree r)

/-- What comes after a program that pays may change its value. -/
theorem Pays.map {p : Program κ σ ρ ε α} {s : σ} (hp : p.Pays C B s) (f : α → β) :
    (p.bind fun a => .pure (f a)).Pays C B s := by
  induction p generalizing s with
  | pure a => trivial
  | throw e => trivial
  | call c next ih =>
    intro t hst hc
    obtain ⟨hincurs, hnext⟩ := hp t hst hc
    refine ⟨?_, ih t hnext⟩
    intro d hd
    rw [meets_bind]
    refine (hincurs d hd).mono ?_
    rintro (e | a) u hu
    · exact hu
    · exact hu
  | ask next ih => exact fun r t hr hst => ih r (hp r t hr hst)

/-- A program in progress keeps what it will meet when others move the state. -/
theorem Meets.moved {post : Except ε α → σ → Prop}
    (htrans : ∀ {s t u}, C.rely s t → C.rely t u → C.rely s u) {p : Program κ σ ρ ε α} {s t : σ}
    (h : p.Meets C post s) (hrunning : p.result? = none) (hst : C.rely s t) :
    p.Meets C post t := by
  cases p with
  | pure a => cases hrunning
  | throw e => cases hrunning
  | call c next => exact fun u htu => h u (htrans hst htu)
  | ask next => exact fun r u hr htu => h r u hr (htrans hst htu)

end Program

namespace Pool

variable {κ σ ρ ε α ι η δ : Type} [Executes κ σ] {S : System κ σ ρ ε α ι η}
  {D : Promises κ σ ρ ε α ι} {B : Debts κ σ δ} {P : Pool κ σ ρ ε α ι}
  {schedule : List (Action ρ ι η)}

/-- Debts arise from commands that incur them, and every program pays. -/
structure Solvent (S : System κ σ ρ ε α ι η) (D : Promises κ σ ρ ε α ι) (B : Debts κ σ δ) :
    Prop where
  exec : ∀ request c s d, D.inv s → D.cond request c s → D.promise request c s →
    B.outstanding (exec c s) d → B.outstanding s d ∨ B.incurs c s d
  environment : ∀ e s d, D.inv s → B.outstanding (S.environment e s) d → B.outstanding s d
  program : ∀ request s, D.inv s → (S.program request).Pays (D.contract request) B s

/-- Every debt is owed by a program that has incurred it and will pay it. -/
structure Owed (D : Promises κ σ ρ ε α ι) (B : Debts κ σ δ) (past : ℕ → List (κ × σ))
    (P : Pool κ σ ρ ε α ι) : Prop where
  pays : ∀ entry ∈ P.procs, entry.2.Pays (D.contract entry.1) B P.state
  owner : ∀ d, B.outstanding P.state d → ∃ i request p, P.procs[i]? = some (request, p) ∧
    p.Meets (D.contract request) (fun _ u => ¬ B.outstanding u d) P.state ∧
      ∃ entry ∈ past i, B.incurs entry.1 entry.2 d

/-- A debt that is outstanding is owed by a program that has not ended. -/
theorem Owed.running {past : ℕ → List (κ × σ)} (h : P.Owed D B past) {d : δ}
    (hd : B.outstanding P.state d) :
    ∃ i request p, P.procs[i]? = some (request, p) ∧ p.result? = none ∧
      p.Meets (D.contract request) (fun _ u => ¬ B.outstanding u d) P.state ∧
        ∃ entry ∈ past i, B.incurs entry.1 entry.2 d := by
  obtain ⟨i, request, p, hget, hmeets, hincurred⟩ := h.owner d hd
  refine ⟨i, request, p, hget, ?_, hmeets, hincurred⟩
  cases p with
  | pure a => exact absurd hd hmeets
  | throw e => exact absurd hd hmeets
  | call c next => rfl
  | ask next => rfl

/-- A step that leaves the programs alone leaves a debt to its owner. -/
theorem Owed.others {past : ℕ → List (κ × σ)} (h : P.Owed D B past) (hD : D.Sound S) {d : δ}
    (hd : B.outstanding P.state d) {Q : Pool κ σ ρ ε α ι} (hmoves : D.moves P.state Q.state)
    (hkeeps : ∀ (i : ℕ) entry, P.procs[i]? = some entry → Q.procs[i]? = some entry) :
    ∃ i request p, Q.procs[i]? = some (request, p) ∧
      p.Meets (D.contract request) (fun _ u => ¬ B.outstanding u d) Q.state ∧
        ∃ entry ∈ past i, B.incurs entry.1 entry.2 d := by
  obtain ⟨i, request, p, hget, hrunning, hmeets, hincurred⟩ := h.running hd
  exact ⟨i, request, p, hkeeps i _ hget, hmeets.moved hD.trans hrunning hmoves, hincurred⟩

theorem Owed.act {past : ℕ → List (κ × σ)} (h : P.Owed D B past) (hP : D.Inv P)
    (hD : D.Sound S) (hB : Solvent S D B) {a : Action ρ ι η} (hadmits : D.steps.Admits P a) :
    (P.act S a).Owed D B fun i => past i ++ P.commandsOf S i [a] := by
  have hmoves := (hP.act hD hadmits).2
  have hpast : ∀ {d : δ}, (∃ i request p, (P.act S a).procs[i]? = some (request, p) ∧
      p.Meets (D.contract request) (fun _ u => ¬ B.outstanding u d) (P.act S a).state ∧
        ∃ entry ∈ past i, B.incurs entry.1 entry.2 d) →
      ∃ i request p, (P.act S a).procs[i]? = some (request, p) ∧
        p.Meets (D.contract request) (fun _ u => ¬ B.outstanding u d) (P.act S a).state ∧
          ∃ entry ∈ past i ++ P.commandsOf S i [a], B.incurs entry.1 entry.2 d := by
    rintro d ⟨i, request, p, hget, hmeets, entry, hentry, hincurs⟩
    exact ⟨i, request, p, hget, hmeets, entry, List.mem_append_left _ hentry, hincurs⟩
  cases a with
  | start request =>
    constructor
    · intro entry hentry
      rcases List.mem_append.mp hentry with hold | hnew
      · exact h.pays entry hold
      · rw [List.mem_singleton.mp hnew]
        exact hB.program request P.state hP.state
    · intro d hd
      apply hpast
      apply h.others hD hd hmoves
      intro i entry hget
      rw [Pool.act, List.getElem?_append_left (List.getElem?_eq_some_iff.mp hget).1]
      exact hget
  | environment e =>
    constructor
    · exact fun entry hentry => (h.pays entry hentry).moved hD.trans hmoves
    · intro d hd
      apply hpast
      apply h.others hD (hB.environment e P.state d hP.state hd) hmoves
      exact fun i entry hget => hget
  | advance i reply =>
    cases hget : P.procs[i]? with
    | none =>
      have hsame : P.act S (.advance i reply) = P := by simp [Pool.act, hget]
      constructor
      · rw [hsame]
        exact h.pays
      · rw [hsame] at hpast ⊢
        exact fun d hd => hpast (h.owner d hd)
    | some entry =>
      obtain ⟨request, p⟩ := entry
      have hi := (List.getElem?_eq_some_iff.mp hget).1
      have hstate : (P.act S (.advance i reply)).state = p.after P.state := by
        simp [Pool.act, hget]
      have hprocs : (P.act S (.advance i reply)).procs =
          P.procs.set i (request, p.next reply P.state) := by simp [Pool.act, hget]
      have hpays := h.pays _ (List.mem_of_getElem? hget)
      have hothers : ∀ j ≠ i, ∀ entry, P.procs[j]? = some entry →
          (P.act S (.advance i reply)).procs[j]? = some entry := by
        intro j hj entry hentry
        rw [hprocs, List.getElem?_set_ne (Ne.symm hj)]
        exact hentry
      have hmine : (P.act S (.advance i reply)).procs[i]? =
          some (request, p.next reply P.state) := act_advance_procs hget
      -- it is enough to look at the program that advances
      have hreduce : (p.next reply P.state).Pays (D.contract request) B (p.after P.state) →
          (∀ d, B.outstanding P.state d →
            p.Meets (D.contract request) (fun _ u => ¬ B.outstanding u d) P.state →
              (p.next reply P.state).Meets (D.contract request) (fun _ u => ¬ B.outstanding u d)
                (p.after P.state)) →
          (∀ d, B.outstanding (p.after P.state) d → B.outstanding P.state d ∨
            ((p.next reply P.state).Meets (D.contract request) (fun _ u => ¬ B.outstanding u d)
              (p.after P.state) ∧
                ∃ entry ∈ P.commandsOf S i [.advance i reply], B.incurs entry.1 entry.2 d)) →
          (P.act S (.advance i reply)).Owed D B
            fun i_1 => past i_1 ++ P.commandsOf S i_1 [.advance i reply] := by
        intro hnext hmeets hnew
        constructor
        · intro entry hentry
          rw [hprocs] at hentry
          rcases List.mem_or_eq_of_mem_set hentry with hold | rfl
          · exact (h.pays entry hold).moved hD.trans hmoves
          · rw [hstate]
            exact hnext
        · intro d hd
          rw [hstate] at hd
          rcases hnew d hd with hold | ⟨hpaid, hincurs⟩
          · apply hpast
            obtain ⟨j, request', q, hq, hrunning, hqmeets, hincurred⟩ := h.running hold
            by_cases hj : j = i
            · subst hj
              rw [hget, Option.some.injEq, Prod.mk.injEq] at hq
              obtain ⟨rfl, rfl⟩ := hq
              refine ⟨j, request, _, hmine, ?_, hincurred⟩
              rw [hstate]
              exact hmeets d hold hqmeets
            · exact ⟨j, request', q, hothers j hj _ hq, hqmeets.moved hD.trans hrunning hmoves,
                hincurred⟩
          · refine ⟨i, request, _, hmine, ?_, ?_⟩
            · rw [hstate]
              exact hpaid
            · obtain ⟨entry, hentry, hincurs⟩ := hincurs
              exact ⟨entry, List.mem_append_right _ hentry, hincurs⟩
      cases p with
      | pure a => exact hreduce trivial (fun _ _ hmeets => hmeets) fun _ hd => Or.inl hd
      | throw e => exact hreduce trivial (fun _ _ hmeets => hmeets) fun _ hd => Or.inl hd
      | ask next =>
        have hreply := hadmits.1 i reply rfl
        exact hreduce (hpays reply P.state hreply (hD.refl _))
          (fun _ _ hmeets => hmeets reply P.state hreply (hD.refl _)) fun _ hd => Or.inl hd
      | call c next =>
        have hstep : P.step? (.advance i reply : Action ρ ι η) = some (request, c) := by
          simp [step?, hget, Program.command?]
        have hcond := hadmits.2 (request, c) hstep
        have hpromise := hP.promise hD hstep hcond
        obtain ⟨hincurs, hnext⟩ := hpays P.state (hD.refl _) ⟨hP.state, hcond⟩
        apply hreduce hnext
        · exact fun d _ hmeets => (hmeets P.state (hD.refl _) ⟨hP.state, hcond⟩).2
        · intro d hd
          rcases hB.exec request c P.state d hP.state hcond hpromise hd with hold | hnew
          · exact Or.inl hold
          · exact Or.inr ⟨hincurs d hnew, _, commandsOf_call hget, hnew⟩

/-- A run from a state without debts: what is outstanding is owed by a program in progress that
has incurred it. -/
theorem Solvent.owner (hB : Solvent S D B) (hD : D.Sound S) {s : σ} (hs : D.inv s)
    (hanswers : ∀ i reply, .advance i reply ∈ schedule → D.answers reply)
    (hcond : ∀ entry ∈ (idle s).history S schedule, D.cond entry.1 entry.2.1 entry.2.2)
    (hstart : ∀ d, ¬ B.outstanding s d) {d : δ}
    (hd : B.outstanding ((idle s).run S schedule).state d) :
    ∃ i request p, ((idle s).run S schedule).procs[i]? = some (request, p) ∧ p.result? = none ∧
      ∃ entry ∈ (idle s).commandsOf S i schedule, B.incurs entry.1 entry.2 d := by
  have hrun : ∀ (P : Pool κ σ ρ ε α ι) past, D.Inv P → P.Owed D B past →
      Throughout S D.steps.Admits P schedule →
        (P.run S schedule).Owed D B fun i => past i ++ P.commandsOf S i schedule := by
    clear hanswers hcond hd hs hstart
    induction schedule with
    | nil =>
      intro P past _ howed _
      simpa [commandsOf] using howed
    | cons a schedule ih =>
      intro P past hP howed hadmits
      have hnext := ih (P.act S a) _ (hP.act hD hadmits.1).1 (howed.act hP hD hB hadmits.1)
        hadmits.2
      rw [run_cons]
      have hpast : (fun i => past i ++ P.commandsOf S i (a :: schedule)) = fun i =>
          (past i ++ P.commandsOf S i [a]) ++ (P.act S a).commandsOf S i schedule := by
        funext i
        rw [commandsOf_cons i a schedule, List.append_assoc]
      rw [hpast]
      exact hnext
  have hidle : (idle s : Pool κ σ ρ ε α ι).Owed D B fun _ => [] := by
    constructor
    · intro entry hentry
      cases hentry
    · exact fun d hd => absurd hd (hstart d)
  obtain ⟨i, request, p, hget, hrunning, -, hincurred⟩ := (hrun _ _ (Promises.inv_idle hs) hidle
    (Stepwise.throughout_admits hanswers hcond)).running hd
  exact ⟨i, request, p, hget, hrunning, by simpa using hincurred⟩

end Pool
end AtomicProgram
