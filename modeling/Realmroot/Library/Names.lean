import Realmroot.Library.Pool

/-!
# Names

A generated name belongs to the program that generated it until the program
uses it in a command, and it is used once. In every interleaving, then, a name
that a command is about to store is not stored yet, and a name that was spent
without being stored never is.
-/

namespace AtomicProgram

/-- Which names a command generates and which it stores, and which names a state
has seen generated and has stored. -/
structure Naming (κ σ ν : Type) where
  generates : κ → σ → ν → Prop
  stores : κ → ν → Prop
  used : σ → ν → Prop
  stored : σ → ν → Prop

namespace Naming

variable {κ σ ν : Type}

/-- The names of a program after one of its commands. -/
def after (N : Naming κ σ ν) (c : κ) (s : σ) (own : ν → Prop) (n : ν) : Prop :=
  (own n ∧ ¬ N.stores c n) ∨ N.generates c s n

end Naming

namespace Program

variable {κ σ ρ ε α β ν : Type} {N : Naming κ σ ν}

/-- Every command of the program stores names of its own only, and gives them up. -/
def Linear (N : Naming κ σ ν) (post : α → (ν → Prop) → Prop) :
    Program κ σ ρ ε α → (ν → Prop) → Prop
  | .pure a, own => post a own
  | .throw _, _ => True
  | .call c next, own =>
    (∀ n, N.stores c n → own n) ∧ ∀ s, (next s).Linear N post (N.after c s own)
  | .ask next, own => ∀ r, (next r).Linear N post own

theorem Linear.bind {p : Program κ σ ρ ε α} {f : α → Program κ σ ρ ε β}
    {post : β → (ν → Prop) → Prop} {own : ν → Prop}
    (h : p.Linear N (fun a => (f a).Linear N post) own) : (p.bind f).Linear N post own := by
  induction p generalizing own with
  | pure a => exact h
  | throw e => trivial
  | call c next ih => exact ⟨h.1, fun s => ih s (h.2 s)⟩
  | ask next ih => exact fun r => ih r (h r)

theorem Linear.mono {p : Program κ σ ρ ε α} {post post' : α → (ν → Prop) → Prop}
    {own : ν → Prop} (h : p.Linear N post own) (hpost : ∀ a own, post a own → post' a own) :
    p.Linear N post' own := by
  induction p generalizing own with
  | pure a => exact hpost _ _ h
  | throw e => trivial
  | call c next ih => exact ⟨h.1, fun s => ih s (h.2 s)⟩
  | ask next ih => exact fun r => ih r (h r)

/-- A program whose commands neither store nor generate names leaves them alone. -/
theorem Uses.linear {p : Program κ σ ρ ε α} (own : ν → Prop)
    (h : p.Uses fun c => (∀ n, ¬ N.stores c n) ∧ ∀ s n, ¬ N.generates c s n) :
    p.Linear N (fun _ own' => own' = own) own := by
  induction p with
  | pure a => rfl
  | throw e => trivial
  | call c next ih =>
    obtain ⟨⟨hstores, hgenerates⟩, hnext⟩ := h
    refine ⟨fun n hn => absurd hn (hstores n), fun s => ?_⟩
    have hafter : N.after c s own = own := by
      funext n
      simp [Naming.after, hstores, hgenerates]
    rw [hafter]
    exact ih s (hnext s)
  | ask next ih => exact fun r => ih r (h r)

end Program

namespace Pool

variable {κ σ ρ ε α ι η ν : Type} [Executes κ σ] {S : System κ σ ρ ε α ι η}
  {N : Naming κ σ ν}

/-- Generated names are new, only commands store names, and every program of the
system is linear. -/
structure Lawful (S : System κ σ ρ ε α ι η) (N : Naming κ σ ν) : Prop where
  fresh : ∀ c s n, N.generates c s n → ¬ N.used s n
  generated : ∀ (c : κ) s n, N.generates c s n → N.used (exec c s) n
  used : ∀ (c : κ) s n, N.used s n → N.used (exec c s) n
  stored : ∀ (c : κ) s n, N.stored (exec c s) n → N.stored s n ∨ N.stores c n
  used_environment : ∀ e s n, N.used s n → N.used (S.environment e s) n
  stored_environment : ∀ e s n, N.stored (S.environment e s) n → N.stored s n
  linear : ∀ request, (S.program request).Linear N (fun _ _ => True) fun _ => False

/-- No two programs own a name, and no name that is owned is stored. -/
structure Separate (N : Naming κ σ ν) (own : ℕ → ν → Prop) (P : Pool κ σ ρ ε α ι) : Prop where
  linear : ∀ i (entry : ι × Program κ σ ρ ε α), P.procs[i]? = some entry →
    entry.2.Linear N (fun _ _ => True) (own i)
  idle : ∀ i, P.procs.length ≤ i → ∀ n, ¬ own i n
  disjoint : ∀ i j n, own i n → own j n → i = j
  used : ∀ i n, own i n → N.used P.state n
  unstored : ∀ i n, own i n → ¬ N.stored P.state n
  stored_used : ∀ n, N.stored P.state n → N.used P.state n

omit [Executes κ σ] in
theorem separate_idle {s : σ} (h : ∀ n, N.stored s n → N.used s n) :
    Separate N (fun _ _ => False) (idle s : Pool κ σ ρ ε α ι) where
  linear i entry hget := by simp at hget
  idle _ _ _ := id
  disjoint _ _ _ h := h.elim
  used _ _ h := h.elim
  unstored _ _ h := h.elim
  stored_used := h

variable {P : Pool κ σ ρ ε α ι} {own : ℕ → ν → Prop}

theorem Separate.start (h : Separate N own P) (hN : Lawful S N) (request : ι) :
    Separate N own (P.act S (.start request)) where
  linear i entry hget := by
    rw [act, List.getElem?_append] at hget
    split_ifs at hget with hi
    · exact h.linear i entry hget
    · have hown : own i = fun _ => False := by
        funext n
        exact propext ⟨fun hn => h.idle i (not_lt.mp hi) n hn, False.elim⟩
      rw [List.getElem?_singleton] at hget
      split_ifs at hget
      cases hget
      rw [hown]
      exact hN.linear request
  idle i hi n := by
    apply h.idle i
    rw [act, List.length_append] at hi
    omega
  disjoint := h.disjoint
  used := h.used
  unstored := h.unstored
  stored_used := h.stored_used

theorem Separate.environment (h : Separate N own P) (hN : Lawful S N) (e : η) :
    Separate N own (P.act S (.environment e)) where
  linear := h.linear
  idle := h.idle
  disjoint := h.disjoint
  used i n hn := hN.used_environment e P.state n (h.used i n hn)
  unstored i n hn hs := h.unstored i n hn (hN.stored_environment e P.state n hs)
  stored_used n hs := hN.used_environment e P.state n
    (h.stored_used n (hN.stored_environment e P.state n hs))

/-- The owners after one program executed a command. -/
def ownAfter (N : Naming κ σ ν) (own : ℕ → ν → Prop) (i : ℕ) (c : κ) (s : σ) : ℕ → ν → Prop :=
  Function.update own i (N.after c s (own i))

omit [Executes κ σ] in
theorem ownAfter_iff {i j : ℕ} {c : κ} {s : σ} {n : ν} :
    ownAfter N own i c s j n ↔
      (j = i ∧ N.after c s (own i) n) ∨ (j ≠ i ∧ own j n) := by
  unfold ownAfter
  by_cases hj : j = i
  · subst hj
    simp
  · simp [hj]

/-- A command that one program executes. -/
theorem Separate.call (h : Separate N own P) (hN : Lawful S N) {i : ℕ} {request : ι} {c : κ}
    {next : σ → Program κ σ ρ ε α} (hget : P.procs[i]? = some (request, .call c next)) :
    Separate N (ownAfter N own i c P.state)
      { state := exec c P.state, procs := P.procs.set i (request, next P.state) } := by
  have hlinear := h.linear i _ hget
  have hi : i < P.procs.length := (List.getElem?_eq_some_iff.mp hget).1
  have hnew : ∀ n, N.generates c P.state n → ¬ N.used P.state n :=
    fun n => hN.fresh c P.state n
  refine ⟨?_, ?_, ?_, ?_, ?_, ?_⟩
  · intro j entry hj
    rw [List.getElem?_set] at hj
    by_cases hji : i = j
    · subst hji
      simp only [if_true, hi, Option.some.injEq] at hj
      subst hj
      simpa [ownAfter] using hlinear.2 P.state
    · rw [if_neg hji] at hj
      simpa [ownAfter, Ne.symm hji] using h.linear j entry hj
  · intro j hj n hn
    rw [List.length_set] at hj
    rcases ownAfter_iff.mp hn with ⟨rfl, -⟩ | ⟨-, hown⟩
    · exact absurd hi (not_lt.mpr hj)
    · exact h.idle j hj n hown
  · intro j k n hj hk
    rcases ownAfter_iff.mp hj with ⟨hji, hmine⟩ | ⟨-, hj'⟩ <;>
      rcases ownAfter_iff.mp hk with ⟨hki, hmine'⟩ | ⟨-, hk'⟩
    · exact hji.trans hki.symm
    · rcases hmine with ⟨hown, -⟩ | hgen
      · exact hji.trans (h.disjoint i k n hown hk')
      · exact absurd (h.used k n hk') (hnew n hgen)
    · rcases hmine' with ⟨hown, -⟩ | hgen
      · exact (h.disjoint j i n hj' hown).trans hki.symm
      · exact absurd (h.used j n hj') (hnew n hgen)
    · exact h.disjoint j k n hj' hk'
  · intro j n hn
    rcases ownAfter_iff.mp hn with ⟨-, ⟨hown, -⟩ | hgen⟩ | ⟨-, hown⟩
    · exact hN.used c _ n (h.used i n hown)
    · exact hN.generated c _ n hgen
    · exact hN.used c _ n (h.used j n hown)
  · intro j n hn hs
    rcases hN.stored c _ n hs with hs | hstores
    · rcases ownAfter_iff.mp hn with ⟨-, ⟨hown, -⟩ | hgen⟩ | ⟨-, hown⟩
      · exact h.unstored i n hown hs
      · exact hnew n hgen (h.stored_used n hs)
      · exact h.unstored j n hown hs
    · have hmine := hlinear.1 n hstores
      rcases ownAfter_iff.mp hn with ⟨-, ⟨-, hkept⟩ | hgen⟩ | ⟨hji, hown⟩
      · exact hkept hstores
      · exact hnew n hgen (h.used i n hmine)
      · exact hji (h.disjoint j i n hown hmine)
  · intro n hs
    rcases hN.stored c _ n hs with hs | hstores
    · exact hN.used c _ n (h.stored_used n hs)
    · exact hN.used c _ n (h.used i n (hlinear.1 n hstores))

omit [Executes κ σ] in
/-- Replies and finished programs do not touch names. -/
theorem Separate.reply (h : Separate N own P) {i : ℕ} {request : ι}
    {p q : Program κ σ ρ ε α} (hget : P.procs[i]? = some (request, p))
    (hq : q.Linear N (fun _ _ => True) (own i)) :
    Separate N own { state := P.state, procs := P.procs.set i (request, q) } where
  linear j entry hj := by
    rw [List.getElem?_set] at hj
    by_cases hji : i = j
    · subst hji
      have hi : i < P.procs.length := (List.getElem?_eq_some_iff.mp hget).1
      simp only [if_true, hi, Option.some.injEq] at hj
      subst hj
      exact hq
    · rw [if_neg hji] at hj
      exact h.linear j entry hj
  idle j hj n := by
    rw [List.length_set] at hj
    exact h.idle j hj n
  disjoint := h.disjoint
  used := h.used
  unstored := h.unstored
  stored_used := h.stored_used

/-- A name is spent when it was generated and no program owns it. -/
def Spent (N : Naming κ σ ν) (own : ℕ → ν → Prop) (s : σ) (n : ν) : Prop :=
  N.used s n ∧ ∀ i, ¬ own i n

/-- One action of any kind. A name that is spent stays spent and does not become
stored. -/
theorem Separate.act (h : Separate N own P) (hN : Lawful S N) (a : Action ρ ι η) :
    ∃ own', Separate N own' (P.act S a) ∧ ∀ n, Spent N own P.state n →
      Spent N own' (P.act S a).state n ∧ (N.stored (P.act S a).state n → N.stored P.state n) := by
  cases a with
  | start request => exact ⟨own, h.start hN request, fun n hn => ⟨hn, id⟩⟩
  | environment e =>
    refine ⟨own, h.environment hN e, fun n hn => ⟨⟨?_, hn.2⟩, ?_⟩⟩
    · exact hN.used_environment e P.state n hn.1
    · exact hN.stored_environment e P.state n
  | advance i reply =>
    rw [Pool.act]
    split
    · rename_i request p hget
      have hlinear := h.linear i _ hget
      cases p with
      | pure a => exact ⟨own, h.reply hget hlinear, fun n hn => ⟨hn, id⟩⟩
      | throw e => exact ⟨own, h.reply hget hlinear, fun n hn => ⟨hn, id⟩⟩
      | ask next => exact ⟨own, h.reply hget (hlinear reply), fun n hn => ⟨hn, id⟩⟩
      | call c next =>
        refine ⟨ownAfter N own i c P.state, h.call hN hget, ?_⟩
        rintro n ⟨hused, hfree⟩
        refine ⟨⟨hN.used c _ n hused, fun j hj => ?_⟩, fun hs => ?_⟩
        · rcases ownAfter_iff.mp hj with ⟨-, ⟨hown, -⟩ | hgen⟩ | ⟨-, hown⟩
          · exact hfree i hown
          · exact hN.fresh c _ n hgen hused
          · exact hfree j hown
        · exact (hN.stored c _ n hs).resolve_right fun hstores =>
            hfree i (hlinear.1 n hstores)
    · exact ⟨own, h, fun n hn => ⟨hn, id⟩⟩

/-- Any schedule. -/
theorem Separate.run (h : Separate N own P) (hN : Lawful S N) (schedule : List (Action ρ ι η)) :
    ∃ own', Separate N own' (P.run S schedule) ∧ ∀ n, Spent N own P.state n →
      Spent N own' (P.run S schedule).state n ∧
        (N.stored (P.run S schedule).state n → N.stored P.state n) := by
  induction schedule generalizing P own with
  | nil => exact ⟨own, h, fun n hn => ⟨hn, id⟩⟩
  | cons a schedule ih =>
    obtain ⟨own', h', hspent⟩ := h.act hN a
    obtain ⟨own'', h'', hspent'⟩ := ih h'
    refine ⟨own'', h'', fun n hn => ?_⟩
    obtain ⟨hn', hstored⟩ := hspent n hn
    obtain ⟨hn'', hstored'⟩ := hspent' n hn'
    exact ⟨hn'', hstored ∘ hstored'⟩

omit [Executes κ σ] in
/-- A name that a command stores belongs to its program. -/
theorem Separate.command_owns (h : Separate N own P) {a : Action ρ ι η} {c : κ}
    (hc : P.command? a = some c) {n : ν} (hn : N.stores c n) : ∃ i, own i n := by
  cases a with
  | start request => simp [command?] at hc
  | environment e => simp [command?] at hc
  | advance i reply =>
    cases hget : P.procs[i]? with
    | none => simp [command?, hget] at hc
    | some entry =>
      obtain ⟨request, p⟩ := entry
      have hlinear := h.linear i _ hget
      cases p with
      | call c' next =>
        simp only [command?, hget, Option.bind_some, Program.command?, Option.some.injEq] at hc
        subst hc
        exact ⟨i, hlinear.1 n hn⟩
      | pure a => simp [command?, hget, Program.command?] at hc
      | throw e => simp [command?, hget, Program.command?] at hc
      | ask next => simp [command?, hget, Program.command?] at hc

omit [Executes κ σ] in
/-- A name that the next command stores is not stored yet. -/
theorem Separate.unstored_command (h : Separate N own P) {a : Action ρ ι η} {c : κ}
    (hc : P.command? a = some c) {n : ν} (hn : N.stores c n) : ¬ N.stored P.state n := by
  obtain ⟨i, hown⟩ := h.command_owns hc hn
  exact h.unstored i n hown

/-- A name that a command stores is spent. -/
theorem Separate.spends (h : Separate N own P) (hN : Lawful S N) {a : Action ρ ι η} {c : κ}
    (hc : P.command? a = some c) :
    ∃ own', Separate N own' (P.act S a) ∧
      ∀ n, N.stores c n → Spent N own' (P.act S a).state n := by
  cases a with
  | start request => simp [command?] at hc
  | environment e => simp [command?] at hc
  | advance i reply =>
    cases hget : P.procs[i]? with
    | none => simp [command?, hget] at hc
    | some entry =>
      obtain ⟨request, p⟩ := entry
      have hlinear := h.linear i _ hget
      simp only [command?, hget, Option.bind_some] at hc
      cases p with
      | call c' next =>
        rw [Program.command?, Option.some.injEq] at hc
        subst hc
        have hact : P.act S (.advance i reply) =
            { state := exec c' P.state, procs := P.procs.set i (request, next P.state) } := by
          simp only [Pool.act, hget]
          rfl
        rw [hact]
        refine ⟨_, h.call hN hget, ?_⟩
        intro n hn
        have hown := hlinear.1 n hn
        refine ⟨hN.used c' _ n (h.used i n hown), ?_⟩
        intro j hj
        rcases ownAfter_iff.mp hj with ⟨-, ⟨-, hkept⟩ | hgen⟩ | ⟨hji, hown'⟩
        · exact hkept hn
        · exact hN.fresh c' _ n hgen (h.used i n hown)
        · exact hji (h.disjoint j i n hown' hown)
      | pure a => simp [Program.command?] at hc
      | throw e => simp [Program.command?] at hc
      | ask next => simp [Program.command?] at hc

/-- A name that a command does not succeed in storing is never stored. -/
theorem Separate.stored_once (h : Separate N own P) (hN : Lawful S N) {a : Action ρ ι η} {c : κ}
    (hc : P.command? a = some c) {n : ν} (hn : N.stores c n) (schedule : List (Action ρ ι η))
    (hs : N.stored ((P.act S a).run S schedule).state n) : N.stored (P.act S a).state n := by
  obtain ⟨own', h', hspent⟩ := h.spends hN hc
  obtain ⟨own'', -, hkeeps⟩ := h'.run hN schedule
  exact (hkeeps n (hspent n hn)).2 hs

/-- Along every schedule, a command finds the names that it stores not stored yet. -/
theorem Separate.along (h : Separate N own P) (hN : Lawful S N) (accepts : ι → Prop)
    (visited : σ → Prop) (schedule : List (Action ρ ι η))
    (haccepts : ∀ request, .start request ∈ schedule → accepts request)
    (hvisited : ∀ s ∈ P.states S schedule, visited s) :
    Along S accepts (fun c s => visited s ∧ ∀ n, N.stores c n → ¬ N.stored s n)
      (fun _ _ => True) P schedule := by
  induction schedule generalizing P own with
  | nil => trivial
  | cons a schedule ih =>
    obtain ⟨own', h', -⟩ := h.act hN a
    refine ⟨?_, ?_, fun _ _ => trivial, ?_⟩
    · intro request ha
      exact haccepts request (ha ▸ List.mem_cons_self ..)
    · intro c hc
      exact ⟨hvisited _ (List.mem_cons_self ..), fun n hn => h.unstored_command hc hn⟩
    · apply ih h'
      · intro request hr
        exact haccepts request (List.mem_cons_of_mem _ hr)
      · intro s hs
        exact hvisited s (List.mem_cons_of_mem _ hs)

/-- Every command of a history finds the names that it stores not stored yet. -/
theorem Separate.history (h : Separate N own P) (hN : Lawful S N)
    (schedule : List (Action ρ ι η)) :
    ∀ entry ∈ P.history S schedule, ∀ n, N.stores entry.2.1 n → ¬ N.stored entry.2.2 n := by
  induction schedule generalizing P own with
  | nil => simp [Pool.history]
  | cons a schedule ih =>
    intro entry hentry
    rcases List.mem_append.mp hentry with hhead | htail
    · obtain ⟨step, hstep, rfl⟩ := Option.map_eq_some_iff.mp (Option.mem_toList.mp hhead)
      exact fun n hn => h.unstored_command (step?_command hstep) hn
    · obtain ⟨own', h', -⟩ := h.act hN a
      exact ih h' entry htail

/-- Nobody stores a name that is spent. -/
theorem Separate.history_spent (h : Separate N own P) (hN : Lawful S N) {n : ν}
    (hspent : Spent N own P.state n) (schedule : List (Action ρ ι η)) :
    ∀ entry ∈ P.history S schedule, ¬ N.stores entry.2.1 n := by
  induction schedule generalizing P own with
  | nil => simp [Pool.history]
  | cons a schedule ih =>
    intro entry hentry
    rcases List.mem_append.mp hentry with hhead | htail
    · obtain ⟨step, hstep, rfl⟩ := Option.map_eq_some_iff.mp (Option.mem_toList.mp hhead)
      intro hn
      obtain ⟨i, hown⟩ := h.command_owns (step?_command hstep) hn
      exact hspent.2 i hown
    · obtain ⟨own', h', hkeeps⟩ := h.act hN a
      exact ih h' (hkeeps n hspent).1 entry htail

/-- A name is stored by one command of a history. -/
theorem Separate.history_pairwise (h : Separate N own P) (hN : Lawful S N)
    (schedule : List (Action ρ ι η)) :
    (P.history S schedule).Pairwise fun entry entry' =>
      ∀ n, N.stores entry.2.1 n → ¬ N.stores entry'.2.1 n := by
  induction schedule generalizing P own with
  | nil => exact List.Pairwise.nil
  | cons a schedule ih =>
    rw [Pool.history, List.pairwise_append]
    cases hstep : P.step? a with
    | none =>
      obtain ⟨own', h', -⟩ := h.act hN a
      exact ⟨by simp, ih h', by simp⟩
    | some step =>
      obtain ⟨own', h', hspent⟩ := h.spends hN (step?_command hstep)
      refine ⟨by simp, ih h', ?_⟩
      intro entry hentry entry' hentry' n hn
      simp only [Option.map_some, Option.toList_some, List.mem_singleton] at hentry
      subst hentry
      exact h'.history_spent hN (hspent n hn) schedule entry' hentry'

end Pool
end AtomicProgram
