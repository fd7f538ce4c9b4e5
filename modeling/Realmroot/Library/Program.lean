/-!
# Programs over atomic commands

A program is a tree of atomic commands on a shared state. A command carries its
own name, so that a run can be read as a list of named steps; what it answers
is read off the state in which it executes. Between two commands nothing is
held: the next one executes in whatever state it then finds. Replies that no
state determines (a remote peer, a random value) are asked for, and any reply
may come.
-/

namespace AtomicProgram

/-- A program with commands `κ`, states `σ`, replies `ρ` and errors `ε`. The
continuation of a command reads the state in which the command executed. -/
inductive Program (κ σ ρ ε α : Type) where
  | pure (value : α)
  | throw (error : ε)
  | call (command : κ) (next : σ → Program κ σ ρ ε α)
  | ask (next : ρ → Program κ σ ρ ε α)

/-- The effect of each command on the state. -/
class Executes (κ σ : Type) where
  exec : κ → σ → σ

export Executes (exec)

namespace Program

variable {κ σ ρ ε α β : Type}

/-- Sequencing; an error skips the rest. -/
def bind : Program κ σ ρ ε α → (α → Program κ σ ρ ε β) → Program κ σ ρ ε β
  | .pure a, f => f a
  | .throw e, _ => .throw e
  | .call c next, f => .call c fun s => (next s).bind f
  | .ask next, f => .ask fun r => (next r).bind f

/-- Runs the handler when the program throws. -/
def tryCatch : Program κ σ ρ ε α → (ε → Program κ σ ρ ε α) → Program κ σ ρ ε α
  | .pure a, _ => .pure a
  | .throw e, handler => handler e
  | .call c next, handler => .call c fun s => (next s).tryCatch handler
  | .ask next, handler => .ask fun r => (next r).tryCatch handler

instance : Monad (Program κ σ ρ ε) where
  pure := .pure
  bind := .bind

instance : MonadExceptOf ε (Program κ σ ρ ε) where
  throw := .throw
  tryCatch := .tryCatch

@[simp] theorem pure_eq (a : α) : (Pure.pure a : Program κ σ ρ ε α) = .pure a := rfl

@[simp] theorem throw_eq (e : ε) :
    (MonadExcept.throw e : Program κ σ ρ ε α) = .throw e := rfl

@[simp] theorem bind_eq (p : Program κ σ ρ ε α) (f : α → Program κ σ ρ ε β) :
    p >>= f = p.bind f := rfl

@[simp] theorem pure_bind (a : α) (f : α → Program κ σ ρ ε β) :
    (Program.pure a : Program κ σ ρ ε α).bind f = f a := rfl

@[simp] theorem throw_bind (e : ε) (f : α → Program κ σ ρ ε β) :
    (Program.throw e : Program κ σ ρ ε α).bind f = .throw e := rfl

@[simp] theorem call_bind (c : κ) (next : σ → Program κ σ ρ ε α)
    (f : α → Program κ σ ρ ε β) :
    (Program.call c next).bind f = .call c fun s => (next s).bind f := rfl

@[simp] theorem ask_bind (next : ρ → Program κ σ ρ ε α) (f : α → Program κ σ ρ ε β) :
    (Program.ask next).bind f = .ask fun r => (next r).bind f := rfl

theorem bind_assoc {γ : Type} (p : Program κ σ ρ ε α) (f : α → Program κ σ ρ ε β)
    (g : β → Program κ σ ρ ε γ) : (p.bind f).bind g = p.bind fun a => (f a).bind g := by
  induction p with
  | pure a => rfl
  | throw e => rfl
  | call c next ih => simp only [bind, ih]
  | ask next ih => simp only [bind, ih]

/-- The program has returned or failed. -/
def result? : Program κ σ ρ ε α → Option (Except ε α)
  | .pure a => some (.ok a)
  | .throw e => some (.error e)
  | .call _ _ => none
  | .ask _ => none

/-- The command that executes next. -/
def command? : Program κ σ ρ ε α → Option κ
  | .call c _ => some c
  | _ => none

/-- The program without its value. -/
def discard (p : Program κ σ ρ ε α) : Program κ σ ρ ε Unit := p.bind fun _ => .pure ()

/-- One program for each entry of a list, in order. -/
def forEach : List β → (β → Program κ σ ρ ε Unit) → Program κ σ ρ ε Unit
  | [], _ => .pure ()
  | b :: bs, f => (f b).bind fun _ => forEach bs f

/-- The values of one program for each entry of a list, in order. -/
def mapEach : List β → (β → Program κ σ ρ ε α) → Program κ σ ρ ε (List α)
  | [], _ => .pure []
  | b :: bs, f => (f b).bind fun a => (mapEach bs f).bind fun as => .pure (a :: as)

end Program
end AtomicProgram
