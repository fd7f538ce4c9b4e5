import Realmroot.Library.Committed
import Realmroot.Library.Issued

/-!
# What a call has done

The commands that a call executes, with the states in which it does, decide together with its
result what the call is to be judged by. The commands of one call are those issued with its
place. A call whose commands change nothing can be left out of a schedule.
-/

namespace AtomicProgram

namespace Program

variable {κ σ ρ ε α β : Type}

/-- Whatever the states and the replies, the commands of the program, after those of the log,
satisfy the postcondition together with its result. -/
def Logs (post : List (κ × σ) → Except ε α → Prop) :
    List (κ × σ) → Program κ σ ρ ε α → Prop
  | log, .pure a => post log (.ok a)
  | log, .throw e => post log (.error e)
  | log, .call c next => ∀ s, (next s).Logs post (log ++ [(c, s)])
  | log, .ask next => ∀ r, (next r).Logs post log

/-- The postcondition of the first half of a sequence. -/
def thenLogs (f : α → Program κ σ ρ ε β) (post : List (κ × σ) → Except ε β → Prop)
    (log : List (κ × σ)) : Except ε α → Prop
  | .ok a => (f a).Logs post log
  | .error e => post log (.error e)

theorem logs_bind (p : Program κ σ ρ ε α) (f : α → Program κ σ ρ ε β)
    (post : List (κ × σ) → Except ε β → Prop) (log : List (κ × σ)) :
    (p.bind f).Logs post log ↔ p.Logs (thenLogs f post) log := by
  induction p generalizing log with
  | pure a => rfl
  | throw e => rfl
  | call c next ih => simp only [bind, Logs, ih]
  | ask next ih => simp only [bind, Logs, ih]

theorem Logs.mono {post post' : List (κ × σ) → Except ε α → Prop} {p : Program κ σ ρ ε α}
    {log : List (κ × σ)} (h : p.Logs post log) (hpost : ∀ log r, post log r → post' log r) :
    p.Logs post' log := by
  induction p generalizing log with
  | pure a => exact hpost _ _ h
  | throw e => exact hpost _ _ h
  | call c next ih => exact fun s => ih s (h s)
  | ask next ih => exact fun r => ih r (h r)

theorem uses_any (p : Program κ σ ρ ε α) : p.Uses fun _ => True := by
  induction p with
  | pure a => trivial
  | throw e => trivial
  | call c next ih => exact ⟨trivial, fun s => ih s⟩
  | ask next ih => exact fun r => ih r

/-- A program of commands of one kind appends commands of that kind. -/
theorem Uses.logs {Q : κ → Prop} {post : List (κ × σ) → Except ε α → Prop}
    {p : Program κ σ ρ ε α} {log : List (κ × σ)} (hp : p.Uses Q)
    (h : ∀ more r, (∀ entry ∈ more, Q entry.1) → post (log ++ more) r) : p.Logs post log := by
  induction p generalizing log with
  | pure a => simpa [Logs] using h [] (.ok a) (by simp)
  | throw e => simpa [Logs] using h [] (.error e) (by simp)
  | call c next ih =>
    intro s
    apply ih s (hp.2 s)
    intro more r hmore
    rw [List.append_assoc]
    apply h
    intro entry hentry
    rcases List.mem_cons.mp hentry with rfl | hentry
    · exact hp.1
    · exact hmore entry hentry
  | ask next ih => exact fun r => ih r (hp r) h

/-- The same in front of other commands. -/
theorem Uses.logs_bind {Q : κ → Prop} {post : List (κ × σ) → Except ε β → Prop}
    {p : Program κ σ ρ ε α} {f : α → Program κ σ ρ ε β} {log : List (κ × σ)} (hp : p.Uses Q)
    (h : ∀ more, (∀ entry ∈ more, Q entry.1) →
      (∀ a, (f a).Logs post (log ++ more)) ∧ ∀ e, post (log ++ more) (.error e)) :
    (p.bind f).Logs post log := by
  rw [Program.logs_bind]
  apply hp.logs
  intro more r hmore
  cases r with
  | ok a => exact (h more hmore).1 a
  | error e => exact (h more hmore).2 e

end Program

namespace Pool

variable {κ σ ρ ε α ι η : Type} [Executes κ σ] {S : System κ σ ρ ε α ι η}
  {post : ι → List (κ × σ) → Except ε α → Prop}

/-- What an action appends to the commands of a call. -/
theorem commandsOf_step (i : ℕ) (P : Pool κ σ ρ ε α ι) (a : Action ρ ι η)
    (schedule : List (Action ρ ι η)) :
    P.commandsOf S i (a :: schedule) =
      (match a with
        | .advance j _ => if j = i then ((P.command? a).map fun c => (c, P.state)).toList else []
        | _ => []) ++ (P.act S a).commandsOf S i schedule := by
  cases a <;> rfl

/-- A call in progress that ends in a schedule satisfies what its program promises of its
commands. -/
theorem logs_of_running {P : Pool κ σ ρ ε α ι} {i : ℕ} {request : ι} {p q : Program κ σ ρ ε α}
    {log : List (κ × σ)} {r : Except ε α} (hget : P.procs[i]? = some (request, p))
    (hp : p.Logs (post request) log) (schedule : List (Action ρ ι η))
    (hend : (P.run S schedule).procs[i]? = some (request, q)) (hresult : q.result? = some r) :
    post request (log ++ P.commandsOf S i schedule) r := by
  induction schedule generalizing P p log with
  | nil =>
    rw [run_nil, hget, Option.some.injEq, Prod.mk.injEq] at hend
    obtain ⟨-, rfl⟩ := hend
    rw [commandsOf, List.append_nil]
    cases p with
    | pure a =>
      cases hresult
      exact hp
    | throw e =>
      cases hresult
      exact hp
    | call c next => cases hresult
    | ask next => cases hresult
  | cons a schedule ih =>
    rw [commandsOf_step, ← List.append_assoc]
    rw [run_cons] at hend
    cases a with
    | start request' =>
      rw [List.append_nil]
      apply ih (P := P.act S (.start request')) _ hp hend
      rw [Pool.act, List.getElem?_append_left]
      · exact hget
      · exact (List.getElem?_eq_some_iff.mp hget).1
    | environment e =>
      rw [List.append_nil]
      exact ih (P := P.act S (.environment e)) hget hp hend
    | advance j reply =>
      by_cases hj : j = i
      · subst hj
        have hnext : (P.act S (.advance j reply)).procs[j]? =
            some (request, p.next reply P.state) := act_advance_procs hget
        refine ih hnext ?_ hend
        cases p with
        | pure a => simpa [command?, hget, Program.command?, Program.next] using hp
        | throw e => simpa [command?, hget, Program.command?, Program.next] using hp
        | call c next => simpa [command?, hget, Program.command?, Program.next] using hp P.state
        | ask next => simpa [command?, hget, Program.command?, Program.next] using hp reply
      · simp only [if_neg hj, List.append_nil]
        apply ih (P := P.act S (.advance j reply)) _ hp hend
        rw [Pool.act]
        split
        · rw [List.getElem?_set_ne hj]
          exact hget
        · exact hget

/-- A call that a schedule starts and that ends in it. -/
theorem logs_of_started (hprogram : ∀ request, (S.program request).Logs (post request) [])
    {P : Pool κ σ ρ ε α ι} {i : ℕ} {request : ι} {q : Program κ σ ρ ε α} {r : Except ε α}
    (habsent : P.procs.length ≤ i) (schedule : List (Action ρ ι η))
    (hend : (P.run S schedule).procs[i]? = some (request, q)) (hresult : q.result? = some r) :
    post request (P.commandsOf S i schedule) r := by
  induction schedule generalizing P with
  | nil =>
    rw [run_nil, List.getElem?_eq_none habsent] at hend
    cases hend
  | cons a schedule ih =>
    rw [commandsOf_step]
    rw [run_cons] at hend
    cases a with
    | environment e => exact ih (P := P.act S (.environment e)) habsent hend
    | advance j reply =>
      have hlength : (P.act S (.advance j reply)).procs.length = P.procs.length := by
        rw [Pool.act]
        split
        · rw [List.length_set]
        · rfl
      have hnone : P.procs[i]? = none := List.getElem?_eq_none habsent
      by_cases hj : j = i
      · subst hj
        simpa [command?, hnone] using ih (P := P.act S (.advance j reply)) (hlength ▸ habsent) hend
      · simpa [hj] using ih (P := P.act S (.advance j reply)) (hlength ▸ habsent) hend
    | start request' =>
      rw [List.nil_append]
      by_cases hi : P.procs.length = i
      · have hget : (P.act S (.start request')).procs[i]? =
            some (request', S.program request') := by
          rw [Pool.act, ← hi]
          simp
        have hstays : ∃ q', ((P.act S (.start request')).run S schedule).procs[i]? =
            some (request', q') ∧ True :=
          run_procs (fun _ _ _ _ => trivial) hget trivial
        obtain ⟨q', hq', -⟩ := hstays
        have hrequest : request' = request := by
          rw [hend] at hq'
          exact (Prod.mk.inj (Option.some.inj hq')).1.symm
        subst hrequest
        exact logs_of_running hget (hprogram request') schedule hend hresult
      · apply ih (P := P.act S (.start request')) _ hend
        rw [Pool.act, List.length_append, List.length_singleton]
        omega

/-! ## Commands by call -/

/-- The commands of a call are those issued with its place. -/
theorem commandsOf_eq_issued (i : ℕ) (schedule : List (Action ρ ι η)) (pasts : List (List σ))
    (P : Pool κ σ ρ ε α ι) :
    P.commandsOf S i schedule =
      ((P.issued S pasts schedule).filter fun x => x.index = i).map
        fun x => (x.command, x.state) := by
  induction schedule generalizing pasts P with
  | nil => rfl
  | cons a schedule ih =>
    rw [commandsOf_step, issued, List.filter_append, List.map_append, ← ih]
    congr 1
    cases a with
    | start request => rfl
    | environment e => rfl
    | advance j reply =>
      simp only [issue?, command?]
      cases P.procs[j]? with
      | none => simp
      | some entry =>
        simp only [Option.bind_some]
        cases entry.2.command? with
        | none => simp
        | some c =>
          by_cases hj : j = i
          · simp [hj]
          · simp [hj]

theorem history_eq_issued (schedule : List (Action ρ ι η)) (pasts : List (List σ))
    (P : Pool κ σ ρ ε α ι) :
    P.history S schedule =
      (P.issued S pasts schedule).map fun x => (x.request, x.command, x.state) := by
  induction schedule generalizing pasts P with
  | nil => rfl
  | cons a schedule ih =>
    rw [history, issued, List.map_append, ← ih]
    congr 1
    cases a with
    | start request => rfl
    | environment e => rfl
    | advance j reply =>
      simp only [step?, issue?]
      cases P.procs[j]? with
      | none => rfl
      | some entry =>
        simp only [Option.bind_some]
        cases entry.2.command? <;> rfl

theorem commands_eq_issued (schedule : List (Action ρ ι η)) (pasts : List (List σ))
    (P : Pool κ σ ρ ε α ι) :
    P.commands S schedule =
      (P.issued S pasts schedule).map fun x => (x.command, x.state) := by
  induction schedule generalizing pasts P with
  | nil => rfl
  | cons a schedule ih =>
    rw [commands, issued, List.map_append, ← ih]
    congr 1
    cases a with
    | start request => rfl
    | environment e => rfl
    | advance i reply =>
      simp only [command?, issue?]
      cases P.procs[i]? with
      | none => rfl
      | some entry =>
        simp only [Option.bind_some]
        cases entry.2.command? <;> rfl

/-- A command is issued by the call at its place. -/
theorem issued_proc (schedule : List (Action ρ ι η)) (pasts : List (List σ))
    (P : Pool κ σ ρ ε α ι) :
    ∀ x ∈ P.issued S pasts schedule,
      ∃ p, (P.run S schedule).procs[x.index]? = some (x.request, p) := by
  induction schedule generalizing pasts P with
  | nil =>
    intro x hx
    cases hx
  | cons a schedule ih =>
    intro x hx
    rw [run_cons]
    rcases List.mem_append.mp hx with hhead | htail
    · have hissue := Option.mem_toList.mp hhead
      cases a with
      | start request => cases hissue
      | environment e => cases hissue
      | advance i reply =>
        obtain ⟨⟨request, p⟩, hget, hmap⟩ := Option.bind_eq_some_iff.mp hissue
        obtain ⟨c, -, rfl⟩ := Option.map_eq_some_iff.mp hmap
        have hnext : (P.act S (.advance i reply)).procs[i]? =
            some (request, p.next reply P.state) := act_advance_procs hget
        have hstays : ∃ q, ((P.act S (.advance i reply)).run S schedule).procs[i]? =
            some (request, q) ∧ True :=
          run_procs (fun _ _ _ _ => trivial) hnext trivial
        obtain ⟨q, hq, -⟩ := hstays
        exact ⟨q, hq⟩
    · exact ih _ _ x htail

/-! ## Leaving a call out -/

/-- The schedule in which a call executes nothing. -/
def without (i : ℕ) (schedule : List (Action ρ ι η)) : List (Action ρ ι η) :=
  schedule.filter fun a =>
    match a with
    | .advance j _ => j ≠ i
    | _ => true

/-- Two pools that differ in one call alone. -/
structure SameBut (i : ℕ) (P Q : Pool κ σ ρ ε α ι) : Prop where
  state : Q.state = P.state
  length : Q.procs.length = P.procs.length
  procs : ∀ j, j ≠ i → Q.procs[j]? = P.procs[j]?

omit [Executes κ σ] in
theorem SameBut.refl (i : ℕ) (P : Pool κ σ ρ ε α ι) : SameBut i P P :=
  ⟨rfl, rfl, fun _ _ => rfl⟩

/-- The same action of another call. -/
theorem SameBut.act {i : ℕ} {P Q : Pool κ σ ρ ε α ι} (h : SameBut i P Q) (a : Action ρ ι η)
    (hother : ∀ j reply, a = .advance j reply → j ≠ i) : SameBut i (P.act S a) (Q.act S a) := by
  cases a with
  | environment e => exact ⟨by simp [Pool.act, h.state], h.length, h.procs⟩
  | start request =>
    refine ⟨h.state, by simp [Pool.act, h.length], ?_⟩
    intro j hj
    simp only [Pool.act, List.getElem?_append, h.length]
    split_ifs
    · exact h.procs j hj
    · rfl
  | advance k reply =>
    have hk : k ≠ i := hother k reply rfl
    simp only [Pool.act, h.procs k hk]
    cases hget : P.procs[k]? with
    | none => exact h
    | some entry =>
      obtain ⟨request, p⟩ := entry
      refine ⟨by simp [h.state], by simp [h.length], ?_⟩
      intro j hj
      by_cases hjk : k = j
      · subst hjk
        simp only [List.getElem?_set_self', h.procs k hk, h.state]
      · simp only [List.getElem?_set_ne hjk, h.procs j hj]

/-- An action of the call that changes nothing. -/
theorem SameBut.skip {i : ℕ} {P Q : Pool κ σ ρ ε α ι} (h : SameBut i P Q) (reply : ρ)
    (hkeeps : ∀ c, P.command? (.advance i reply : Action ρ ι η) = some c →
      exec c P.state = P.state) : SameBut i (P.act S (.advance i reply)) Q := by
  have hstate : (P.act S (.advance i reply)).state = P.state := by
    cases hc : P.command? (.advance i reply : Action ρ ι η) with
    | none => exact act_state_of_none hc (by simp)
    | some c => rw [act_state S hc, hkeeps c hc]
  refine ⟨by rw [hstate, h.state], ?_, ?_⟩
  · rw [Pool.act]
    split
    · simp [h.length]
    · exact h.length
  · intro j hj
    rw [h.procs j hj, Pool.act]
    split
    · rw [List.getElem?_set_ne hj.symm]
    · rfl

/-- A call whose commands change nothing may as well not have run. -/
theorem run_without {i : ℕ} (schedule : List (Action ρ ι η)) {P Q : Pool κ σ ρ ε α ι}
    (h : SameBut i P Q)
    (hkeeps : ∀ entry ∈ P.commandsOf S i schedule, exec entry.1 entry.2 = entry.2) :
    SameBut i (P.run S schedule) (Q.run S (without i schedule)) := by
  induction schedule generalizing P Q with
  | nil => exact h
  | cons a schedule ih =>
    rw [commandsOf_step] at hkeeps
    have hrest : ∀ entry ∈ (P.act S a).commandsOf S i schedule, exec entry.1 entry.2 = entry.2 :=
      fun entry hentry => hkeeps entry (List.mem_append_right _ hentry)
    cases a with
    | start request => exact ih (h.act _ (by simp)) hrest
    | environment e => exact ih (h.act _ (by simp)) hrest
    | advance j reply =>
      by_cases hj : j = i
      · subst hj
        have hskip : without j (.advance j reply :: schedule) = without j schedule := by
          simp [without]
        rw [hskip, run_cons]
        refine ih (h.skip reply fun c hc => ?_) hrest
        exact hkeeps (c, P.state) (List.mem_append_left _ (by simp [hc]))
      · have hkept : without i (.advance j reply :: schedule) =
            .advance j reply :: without i schedule := by
          simp [without, hj]
        rw [hkept, run_cons, run_cons]
        refine ih (h.act _ ?_) hrest
        intro k reply' heq
        cases heq
        exact hj

end Pool
end AtomicProgram
