import Realmroot.Library.Program
import Mathlib.Tactic

/-!
# Rely and guarantee

A contract says what a program may assume of the steps that others take between
two of its commands, which of its own commands are considered at all, and what
each of these has to establish in the state in which it executes. `Meets` is
defined by recursion on the program, so that a proof about a program follows
its text; the rules below are the ones such a proof uses.
-/

namespace AtomicProgram

/-- `rely s t`: others may take the state from `s` to `t`. `answers r`: the reply
`r` is considered. `allowed c s`: the command `c` is considered in `s`.
`guarantee c s`: what `c` must establish when it executes in `s`. -/
structure Contract (κ σ ρ : Type) where
  rely : σ → σ → Prop
  answers : ρ → Prop
  allowed : κ → σ → Prop
  guarantee : κ → σ → Prop

namespace Program

variable {κ σ ρ ε α β : Type} [Executes κ σ] {C : Contract κ σ ρ}

/-- Every run of the program from the state keeps the contract, and ends in a
result and a state that satisfy the postcondition. -/
def Meets (C : Contract κ σ ρ) (post : Except ε α → σ → Prop) :
    Program κ σ ρ ε α → σ → Prop
  | .pure a, s => post (.ok a) s
  | .throw e, s => post (.error e) s
  | .call c next, s => ∀ t, C.rely s t → C.allowed c t →
      C.guarantee c t ∧ (next t).Meets C post (exec c t)
  | .ask next, s => ∀ r t, C.answers r → C.rely s t → (next r).Meets C post t

/-- The postcondition of the first half of a sequence. -/
def andThen (C : Contract κ σ ρ) (f : α → Program κ σ ρ ε β) (post : Except ε β → σ → Prop) :
    Except ε α → σ → Prop
  | .ok a, s => (f a).Meets C post s
  | .error e, s => post (.error e) s

@[simp] theorem andThen_ok (f : α → Program κ σ ρ ε β) (post : Except ε β → σ → Prop)
    (a : α) (s : σ) : andThen C f post (.ok a) s = (f a).Meets C post s := rfl

@[simp] theorem andThen_error (f : α → Program κ σ ρ ε β) (post : Except ε β → σ → Prop)
    (e : ε) (s : σ) : andThen C f post (.error e) s = post (.error e) s := rfl

theorem meets_bind (p : Program κ σ ρ ε α) (f : α → Program κ σ ρ ε β)
    (post : Except ε β → σ → Prop) (s : σ) :
    (p.bind f).Meets C post s ↔ p.Meets C (andThen C f post) s := by
  induction p generalizing s with
  | pure a => rfl
  | throw e => rfl
  | call c next ih => simp only [bind, Meets, ih]
  | ask next ih => simp only [bind, Meets, ih]

theorem Meets.mono {post post' : Except ε α → σ → Prop} {p : Program κ σ ρ ε α} {s : σ}
    (h : p.Meets C post s) (hpost : ∀ r t, post r t → post' r t) : p.Meets C post' s := by
  induction p generalizing s with
  | pure a => exact hpost _ _ h
  | throw e => exact hpost _ _ h
  | call c next ih => exact fun t hst hc => ⟨(h t hst hc).1, ih t (h t hst hc).2⟩
  | ask next ih => exact fun r t hr hst => ih r (h r t hr hst)

/-- What others do does not undo a contract, when their steps compose and the
postcondition survives them. -/
theorem Meets.stable (htrans : ∀ {s t u}, C.rely s t → C.rely t u → C.rely s u)
    {post : Except ε α → σ → Prop}
    (hpost : ∀ r s t, post r s → C.rely s t → post r t)
    {p : Program κ σ ρ ε α} {s t : σ} (h : p.Meets C post s) (hst : C.rely s t) :
    p.Meets C post t := by
  cases p with
  | pure a => exact hpost _ _ _ h hst
  | throw e => exact hpost _ _ _ h hst
  | call c next => exact fun u htu hc => h u (htrans hst htu) hc
  | ask next => exact fun r u hr htu => h r u hr (htrans hst htu)

theorem meets_tryCatch (p : Program κ σ ρ ε α) (handler : ε → Program κ σ ρ ε α)
    (post : Except ε α → σ → Prop) (s : σ) :
    (p.tryCatch handler).Meets C post s ↔
      p.Meets C (fun r t => match r with
        | .ok a => post (.ok a) t
        | .error e => (handler e).Meets C post t) s := by
  induction p generalizing s with
  | pure a => rfl
  | throw e => rfl
  | call c next ih => simp only [tryCatch, Meets, ih]
  | ask next ih => simp only [tryCatch, Meets, ih]

/-- A loop keeps an invariant that every round keeps. -/
theorem meets_forEach {inv : List β → σ → Prop} {post : Except ε Unit → σ → Prop}
    {f : β → Program κ σ ρ ε Unit}
    (hround : ∀ b bs s, inv (b :: bs) s →
      (f b).Meets C (fun r t => match r with
        | .ok _ => inv bs t
        | .error e => post (.error e) t) s)
    (hdone : ∀ s, inv [] s → post (.ok ()) s) :
    ∀ (bs : List β) (s : σ), inv bs s → (forEach bs f).Meets C post s
  | [], s, h => hdone s h
  | b :: bs, s, h => by
    rw [forEach, meets_bind]
    refine (hround b bs s h).mono ?_
    rintro (e | u) t ht
    · exact ht
    · exact meets_forEach hround hdone bs t ht

/-- A loop that collects values: each value satisfies what its round promises. -/
theorem meets_mapEach (inv : σ → Prop) (Q : β → α → Prop) (onError : ε → σ → Prop)
    {f : β → Program κ σ ρ ε α}
    (hround : ∀ b s, inv s → (f b).Meets C (fun r t => match r with
      | .ok a => inv t ∧ Q b a
      | .error e => onError e t) s) :
    ∀ (bs : List β) (s : σ), inv s → (mapEach bs f).Meets C (fun r t => match r with
      | .ok values => inv t ∧ List.Forall₂ Q bs values
      | .error e => onError e t) s
  | [], s, h => ⟨h, .nil⟩
  | b :: bs, s, h => by
    rw [mapEach, meets_bind]
    refine (hround b s h).mono ?_
    rintro (e | a) t ht
    · exact ht
    · rw [andThen_ok, meets_bind]
      refine (meets_mapEach inv Q onError hround bs t ht.1).mono ?_
      rintro (e | values) u hu
      · exact hu
      · exact ⟨hu.1, .cons ht.2 hu.2⟩

/-- Every command of the program satisfies `P`. -/
def Uses (P : κ → Prop) : Program κ σ ρ ε α → Prop
  | .pure _ => True
  | .throw _ => True
  | .call c next => P c ∧ ∀ s, (next s).Uses P
  | .ask next => ∀ r, (next r).Uses P

section Uses

variable {P : κ → Prop}

omit [Executes κ σ]

@[simp] theorem uses_pure (a : α) : (.pure a : Program κ σ ρ ε α).Uses P := trivial

@[simp] theorem uses_throw (e : ε) : (.throw e : Program κ σ ρ ε α).Uses P := trivial

@[simp] theorem uses_call (c : κ) (next : σ → Program κ σ ρ ε α) :
    (Program.call c next).Uses P ↔ P c ∧ ∀ s, (next s).Uses P := Iff.rfl

@[simp] theorem uses_ask (next : ρ → Program κ σ ρ ε α) :
    (Program.ask next).Uses P ↔ ∀ r, (next r).Uses P := Iff.rfl

theorem Uses.bind {p : Program κ σ ρ ε α} {f : α → Program κ σ ρ ε β}
    (hp : p.Uses P) (hf : ∀ a, (f a).Uses P) : (p.bind f).Uses P := by
  induction p with
  | pure a => exact hf a
  | throw e => trivial
  | call c next ih => exact ⟨hp.1, fun s => ih s (hp.2 s)⟩
  | ask next ih => exact fun r => ih r (hp r)

theorem Uses.tryCatch {p : Program κ σ ρ ε α} {handler : ε → Program κ σ ρ ε α}
    (hp : p.Uses P) (hh : ∀ e, (handler e).Uses P) : (p.tryCatch handler).Uses P := by
  induction p with
  | pure a => trivial
  | throw e => exact hh e
  | call c next ih => exact ⟨hp.1, fun s => ih s (hp.2 s)⟩
  | ask next ih => exact fun r => ih r (hp r)

theorem Uses.discard {p : Program κ σ ρ ε α} (hp : p.Uses P) : p.discard.Uses P :=
  hp.bind fun _ => trivial

theorem Uses.forEach {bs : List β} {f : β → Program κ σ ρ ε Unit}
    (hf : ∀ b, (f b).Uses P) : (forEach bs f).Uses P := by
  induction bs with
  | nil => trivial
  | cons b bs ih => exact (hf b).bind fun _ => ih

theorem Uses.mapEach {bs : List β} {f : β → Program κ σ ρ ε α}
    (hf : ∀ b, (f b).Uses P) : (mapEach bs f).Uses P := by
  induction bs with
  | nil => trivial
  | cons b bs ih => exact (hf b).bind fun _ => ih.bind fun _ => trivial

theorem Uses.mono {Q : κ → Prop} {p : Program κ σ ρ ε α} (h : p.Uses P)
    (hPQ : ∀ c, P c → Q c) : p.Uses Q := by
  induction p with
  | pure a => trivial
  | throw e => trivial
  | call c next ih => exact ⟨hPQ c h.1, fun s => ih s (h.2 s)⟩
  | ask next ih => exact fun r => ih r (h r)

end Uses

/-- A program of commands that are promised in every state, when nothing is asked of its end. -/
theorem Uses.meets {P : κ → Prop} {post : Except ε α → σ → Prop} {p : Program κ σ ρ ε α}
    (hp : p.Uses P) (hguarantee : ∀ c, P c → ∀ s, C.allowed c s → C.guarantee c s)
    (hpost : ∀ r s, post r s) (s : σ) : p.Meets C post s := by
  induction p generalizing s with
  | pure a => exact hpost _ s
  | throw e => exact hpost _ s
  | call c next ih =>
    intro t _ hallowed
    exact ⟨hguarantee c hp.1 t hallowed, ih t (hp.2 t) _⟩
  | ask next ih => exact fun r t _ _ => ih r (hp r) t

/-- Every command of the program satisfies `P`, as long as it reads states that satisfy `inv`
and only gets the replies that are considered. -/
def Issues (inv : σ → Prop) (answers : ρ → Prop) (P : κ → Prop) : Program κ σ ρ ε α → Prop
  | .pure _ => True
  | .throw _ => True
  | .call c next => P c ∧ ∀ s, inv s → (next s).Issues inv answers P
  | .ask next => ∀ r, answers r → (next r).Issues inv answers P

omit [Executes κ σ] in
theorem Uses.issues {inv : σ → Prop} {answers : ρ → Prop} {P : κ → Prop}
    {p : Program κ σ ρ ε α} (h : p.Uses P) : p.Issues inv answers P := by
  induction p with
  | pure a => trivial
  | throw e => trivial
  | call c next ih => exact ⟨h.1, fun s _ => ih s (h.2 s)⟩
  | ask next ih => exact fun r _ => ih r (h r)

omit [Executes κ σ] in
theorem Issues.bind {inv : σ → Prop} {answers : ρ → Prop} {P : κ → Prop}
    {p : Program κ σ ρ ε α} {f : α → Program κ σ ρ ε β} (hp : p.Issues inv answers P)
    (hf : ∀ a, (f a).Issues inv answers P) : (p.bind f).Issues inv answers P := by
  induction p with
  | pure a => exact hf a
  | throw e => trivial
  | call c next ih => exact ⟨hp.1, fun s hs => ih s (hp.2 s hs)⟩
  | ask next ih => exact fun r hr => ih r (hp r hr)

/-- Every value that the program can return satisfies `Q`, whatever it reads. -/
def Returns (Q : α → Prop) : Program κ σ ρ ε α → Prop
  | .pure a => Q a
  | .throw _ => True
  | .call _ next => ∀ s, (next s).Returns Q
  | .ask next => ∀ r, (next r).Returns Q

omit [Executes κ σ] in
theorem Returns.bind {Q : α → Prop} {R : β → Prop} {p : Program κ σ ρ ε α}
    {f : α → Program κ σ ρ ε β} (hp : p.Returns Q) (hf : ∀ a, Q a → (f a).Returns R) :
    (p.bind f).Returns R := by
  induction p with
  | pure a => exact hf a hp
  | throw e => trivial
  | call c next ih => exact fun s => ih s (hp s)
  | ask next ih => exact fun r => ih r (hp r)

omit [Executes κ σ] in
theorem Returns.mono {Q R : α → Prop} {p : Program κ σ ρ ε α} (h : p.Returns Q)
    (hQR : ∀ a, Q a → R a) : p.Returns R := by
  induction p with
  | pure a => exact hQR a h
  | throw e => trivial
  | call c next ih => exact fun s => ih s (h s)
  | ask next ih => exact fun r => ih r (h r)

omit [Executes κ σ] in
/-- The commands of a sequence, when the first half only returns values of a kind. -/
theorem Uses.bind_returns {P : κ → Prop} {Q : α → Prop} {p : Program κ σ ρ ε α}
    {f : α → Program κ σ ρ ε β} (hp : p.Uses P) (hQ : p.Returns Q)
    (hf : ∀ a, Q a → (f a).Uses P) : (p.bind f).Uses P := by
  induction p with
  | pure a => exact hf a hQ
  | throw e => trivial
  | call c next ih => exact ⟨hp.1, fun s => ih s (hp.2 s) (hQ s)⟩
  | ask next ih => exact fun r => ih r (hp r) (hQ r)

omit [Executes κ σ] in
theorem returns_true (p : Program κ σ ρ ε α) : p.Returns fun _ => True := by
  induction p with
  | pure a => trivial
  | throw e => trivial
  | call c next ih => exact fun s => ih s
  | ask next ih => exact fun r => ih r

/-- What a program can return may be added to its postcondition. -/
theorem Meets.returns {post : Except ε α → σ → Prop} {Q : α → Prop} {p : Program κ σ ρ ε α}
    {s : σ} (h : p.Meets C post s) (hp : p.Returns Q) :
    p.Meets C (fun r t => post r t ∧ ∀ a, r = .ok a → Q a) s := by
  induction p generalizing s with
  | pure a =>
    refine ⟨h, ?_⟩
    rintro _ ⟨rfl⟩
    exact hp
  | throw e =>
    refine ⟨h, ?_⟩
    intro a ha
    cases ha
  | call c next ih => exact fun t hst hc => ⟨(h t hst hc).1, ih t (h t hst hc).2 (hp t)⟩
  | ask next ih => exact fun r t hr hst => ih r (h r t hr hst) (hp r)

/-- Commands that keep the contract wherever they are allowed, and whose effect
others have to reckon with anyway. -/
structure Quiet (C : Contract κ σ ρ) (P : κ → Prop) : Prop where
  refl : ∀ s, C.rely s s
  trans : ∀ {s t u}, C.rely s t → C.rely t u → C.rely s u
  guarantee : ∀ c, P c → ∀ s, C.allowed c s → C.guarantee c s
  moves : ∀ c, P c → ∀ s, C.allowed c s → C.rely s (exec c s)

/-- A program of quiet commands only moves the state as others may. -/
theorem Quiet.meets {P : κ → Prop} (hP : Quiet C P) {p : Program κ σ ρ ε α}
    (hp : p.Uses P) (s : σ) : p.Meets C (fun _ t => C.rely s t) s := by
  induction p generalizing s with
  | pure a => exact hP.refl s
  | throw e => exact hP.refl s
  | call c next ih =>
    intro t hst hc
    refine ⟨hP.guarantee c hp.1 t hc, (ih t (hp.2 t) _).mono fun _ u htu => ?_⟩
    exact hP.trans hst (hP.trans (hP.moves c hp.1 t hc) htu)
  | ask next ih =>
    intro r t _ hst
    exact (ih r (hp r) t).mono fun _ u htu => hP.trans hst htu

/-- A sequence that begins with quiet commands, with what these can return. -/
theorem Quiet.meets_bind_returns {P : κ → Prop} (hP : Quiet C P) {p : Program κ σ ρ ε α}
    {f : α → Program κ σ ρ ε β} {post : Except ε β → σ → Prop} {Q : α → Prop} {s : σ}
    (hp : p.Uses P) (hQ : p.Returns Q) (hok : ∀ a t, Q a → C.rely s t → (f a).Meets C post t)
    (herror : ∀ e t, C.rely s t → post (.error e) t) : (p.bind f).Meets C post s := by
  rw [Program.meets_bind]
  refine ((hP.meets hp s).returns hQ).mono ?_
  rintro (e | a) t ⟨hst, ha⟩
  · exact herror e t hst
  · exact hok a t (ha a rfl) hst

/-- A sequence that begins with quiet commands. -/
theorem Quiet.meets_bind {P : κ → Prop} (hP : Quiet C P) {p : Program κ σ ρ ε α}
    {f : α → Program κ σ ρ ε β} {post : Except ε β → σ → Prop} {s : σ} (hp : p.Uses P)
    (hok : ∀ a t, C.rely s t → (f a).Meets C post t)
    (herror : ∀ e t, C.rely s t → post (.error e) t) : (p.bind f).Meets C post s :=
  hP.meets_bind_returns hp (returns_true p) (fun a t _ => hok a t) herror

end Program
end AtomicProgram
