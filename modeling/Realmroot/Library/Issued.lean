import Realmroot.Library.Pool

/-!
# What a call has seen

The commands that a schedule executes, each with the call that issues it and the states in which
that call executed its commands before. What a call read, and whether that is still so when it
writes, can be said of them. A view of the state that every later command keeps is as the last
command that changed it left it.
-/

namespace AtomicProgram

/-- A command that a schedule executes. -/
structure Issued (κ σ ι : Type) where
  /-- The call, by its place among the calls. -/
  index : ℕ
  request : ι
  /-- The states in which the call executed its commands before this one. -/
  past : List σ
  command : κ
  state : σ

namespace Issued

variable {κ σ ι : Type} [Executes κ σ]

/-- The state that the command leaves. -/
def after (x : Issued κ σ ι) : σ := exec x.command x.state

end Issued

namespace Pool

variable {κ σ ρ ε α ι η β : Type}

/-- The command that an action executes, when the calls have seen these states. -/
def issue? (pasts : List (List σ)) (P : Pool κ σ ρ ε α ι) :
    Action ρ ι η → Option (Issued κ σ ι)
  | .advance i _ =>
    (P.procs[i]?).bind fun entry => (entry.2.command?).map fun c =>
      { index := i, request := entry.1, past := pasts.getD i [], command := c, state := P.state }
  | _ => none

/-- What the calls have seen after an action. -/
def remember (pasts : List (List σ)) (P : Pool κ σ ρ ε α ι) (a : Action ρ ι η) :
    List (List σ) :=
  match a with
  | .start _ => pasts ++ [[]]
  | .advance i _ =>
    if (P.command? a).isSome then pasts.set i (pasts.getD i [] ++ [P.state]) else pasts
  | .environment _ => pasts

variable [Executes κ σ] (S : System κ σ ρ ε α ι η)

/-- The commands of a schedule. -/
def issued : List (List σ) → Pool κ σ ρ ε α ι → List (Action ρ ι η) → List (Issued κ σ ι)
  | _, _, [] => []
  | pasts, P, a :: schedule =>
    (P.issue? pasts a).toList ++ issued (P.remember pasts a) (P.act S a) schedule

/-- The call has returned. -/
def Acknowledged (P : Pool κ σ ρ ε α ι) (x : Issued κ σ ι) : Prop :=
  match (P.procs[x.index]?).bind fun entry => entry.2.result? with
  | some (.ok _) => True
  | _ => False

omit [Executes κ σ] in
instance (P : Pool κ σ ρ ε α ι) (x : Issued κ σ ι) : Decidable (P.Acknowledged x) := by
  unfold Acknowledged
  split <;> infer_instance

section Issue

variable {pasts : List (List σ)} {P : Pool κ σ ρ ε α ι} {a : Action ρ ι η} {x : Issued κ σ ι}

omit [Executes κ σ] in
/-- What an action issues is its command, in the state in which it executes. -/
theorem issue?_eq_some (h : P.issue? pasts a = some x) :
    P.command? a = some x.command ∧ x.state = P.state := by
  cases a with
  | start request => cases h
  | environment event => cases h
  | advance i reply =>
    obtain ⟨entry, hget, hmap⟩ := Option.bind_eq_some_iff.mp h
    obtain ⟨c, hc, rfl⟩ := Option.map_eq_some_iff.mp hmap
    refine ⟨?_, rfl⟩
    simp only [command?, hget, Option.bind_some]
    exact hc

omit [Executes κ σ] in
theorem issue?_eq_none (h : P.issue? pasts a = none) : P.command? a = none := by
  cases a with
  | start request => rfl
  | environment event => rfl
  | advance i reply =>
    cases hget : P.procs[i]? with
    | none => simp [command?, hget]
    | some entry =>
      simp only [issue?, hget, Option.bind_some, Option.map_eq_none_iff] at h
      simp only [command?, hget, Option.bind_some]
      exact h

/-- The state after an action that issues a command. -/
theorem act_state_of_issue? (h : P.issue? pasts a = some x) : (P.act S a).state = x.after := by
  obtain ⟨hc, hstate⟩ := issue?_eq_some h
  rw [act_state S hc, Issued.after, hstate]

end Issue

variable {S}

/-- Each command is one that its request uses, and executes in a state that the commands and the
environment keep. -/
theorem issued_sound {Q : ι → κ → Prop} {I : σ → Prop}
    (hprogram : ∀ request, (S.program request).Uses (Q request))
    (hexec : ∀ request c s, Q request c → I s → I (exec c s))
    (henvironment : ∀ e s, I s → I (S.environment e s)) (schedule : List (Action ρ ι η))
    (pasts : List (List σ)) (P : Pool κ σ ρ ε α ι) (huses : P.AllUse Q) (hP : I P.state) :
    ∀ x ∈ P.issued S pasts schedule, Q x.request x.command ∧ I x.state := by
  induction schedule generalizing pasts P with
  | nil =>
    intro x hx
    cases hx
  | cons a schedule ih =>
    have hnext : I (P.act S a).state := by
      cases hc : P.command? a with
      | some c =>
        obtain ⟨request, hrequest⟩ := huses.command hc
        rw [act_state S hc]
        exact hexec request c P.state hrequest hP
      | none =>
        cases a with
        | environment e => exact henvironment e P.state hP
        | start request => exact hP
        | advance i reply =>
          rw [act_state_of_none hc (by simp)]
          exact hP
    intro x hx
    rcases List.mem_append.mp hx with hhead | htail
    · have hissue := Option.mem_toList.mp hhead
      rw [(issue?_eq_some hissue).2]
      refine ⟨?_, hP⟩
      cases a with
      | start request => cases hissue
      | environment event => cases hissue
      | advance i reply =>
        obtain ⟨entry, hget, hmap⟩ := Option.bind_eq_some_iff.mp hissue
        obtain ⟨c, hc, rfl⟩ := Option.map_eq_some_iff.mp hmap
        exact huses.next hget hc
    · exact ih _ _ (huses.act hprogram a) hnext x htail

section View

variable (view : σ → β) (henvironment : ∀ e s, view (S.environment e s) = view s)

include henvironment

/-- The view after an action that issues nothing. -/
theorem view_act_of_none {pasts : List (List σ)} {P : Pool κ σ ρ ε α ι} {a : Action ρ ι η}
    (h : P.issue? pasts a = none) : view (P.act S a).state = view P.state := by
  have hc := issue?_eq_none h
  cases a with
  | environment e => exact henvironment e P.state
  | start request => rfl
  | advance i reply => rw [act_state_of_none hc (by simp)]

/-- What every command keeps is as it was. -/
theorem view_run (schedule : List (Action ρ ι η)) (pasts : List (List σ))
    (P : Pool κ σ ρ ε α ι)
    (hkeeps : ∀ x ∈ P.issued S pasts schedule, view x.after = view x.state) :
    view (P.run S schedule).state = view P.state := by
  induction schedule generalizing pasts P with
  | nil => rfl
  | cons a schedule ih =>
    rw [run_cons, ih _ _ fun x hx => hkeeps x (List.mem_append_right _ hx)]
    cases hissue : P.issue? pasts a with
    | none => exact view_act_of_none view henvironment hissue
    | some x =>
      have hmem : x ∈ P.issued S pasts (a :: schedule) :=
        List.mem_append_left _ (Option.mem_toList.mpr hissue)
      rw [act_state_of_issue? S hissue, hkeeps x hmem, (issue?_eq_some hissue).2]

/-- What every later command keeps is as a command left it. -/
theorem view_after (schedule : List (Action ρ ι η)) (pasts : List (List σ))
    (P : Pool κ σ ρ ε α ι) {earlier later : List (Issued κ σ ι)} {x : Issued κ σ ι}
    (hsplit : P.issued S pasts schedule = earlier ++ x :: later)
    (hkeeps : ∀ y ∈ later, view y.after = view y.state) :
    view (P.run S schedule).state = view x.after := by
  induction schedule generalizing pasts P earlier with
  | nil => simp [issued] at hsplit
  | cons a schedule ih =>
    rw [run_cons]
    cases hissue : P.issue? pasts a with
    | none =>
      simp only [issued, hissue, Option.toList_none, List.nil_append] at hsplit
      exact ih _ _ hsplit
    | some first =>
      simp only [issued, hissue, Option.toList_some, List.singleton_append] at hsplit
      cases earlier with
      | nil =>
        rw [List.nil_append, List.cons.injEq] at hsplit
        obtain ⟨rfl, hrest⟩ := hsplit
        rw [view_run view henvironment schedule _ _ (hrest ▸ hkeeps), act_state_of_issue? S hissue]
      | cons other earlier =>
        rw [List.cons_append, List.cons.injEq] at hsplit
        exact ih _ _ hsplit.2

end View

end Pool
end AtomicProgram
