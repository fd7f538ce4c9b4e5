import Mathlib.Tactic

/-!
# Custody

Objects are stored in one place and accounted for in others. Whoever stores an object keeps it
until it is registered, queued for deletion, or deleted again. A worker claims objects from the
queue, deletes them, and takes them from the queue when they are gone. What is registered is then
stored at all times, and what is stored is registered, queued, or kept by one who has stored it.
-/

namespace Custody

/-- Who accounts for which objects. -/
@[ext]
structure State (κ ι : Type) where
  stored : κ → Prop
  registered : κ → Prop
  queued : κ → Prop
  /-- A worker has claimed the object. -/
  claimed : ι → κ → Prop
  /-- A worker has deleted the object since. -/
  deleted : ι → κ → Prop
  /-- The object is kept by one who has stored it. -/
  kept : ι → κ → Prop

variable {κ ι : Type}

/-- The custody of an object is nobody else's. -/
structure Sound (c : State κ ι) : Prop where
  registered_stored : ∀ k, c.registered k → c.stored k
  kept_stored : ∀ i k, c.kept i k → c.stored k
  covered : ∀ k, c.stored k → c.registered k ∨ c.queued k ∨ ∃ i, c.kept i k
  registered_unqueued : ∀ k, c.registered k → ¬ c.queued k
  registered_unclaimed : ∀ i k, c.registered k → ¬ c.claimed i k
  registered_unkept : ∀ i k, c.registered k → ¬ c.kept i k
  kept_unqueued : ∀ i k, c.kept i k → ¬ c.queued k
  kept_unclaimed : ∀ i j k, c.kept i k → ¬ c.claimed j k
  kept_alone : ∀ i j k, c.kept i k → c.kept j k → i = j
  deleted_claimed : ∀ i k, c.deleted i k → c.claimed i k
  deleted_gone : ∀ i k, c.deleted i k → ¬ c.stored k

namespace State

/-- The object is somewhere. -/
def Known (c : State κ ι) (k : κ) : Prop :=
  c.stored k ∨ c.registered k ∨ c.queued k ∨ ∃ i, c.claimed i k

def store (c : State κ ι) (i : ι) (k : κ) : State κ ι :=
  { c with
    stored := fun x => x = k ∨ c.stored x
    kept := fun j x => (j = i ∧ x = k) ∨ c.kept j x }

def register (c : State κ ι) (k : κ) : State κ ι :=
  { c with
    registered := fun x => x = k ∨ c.registered x
    kept := fun j x => c.kept j x ∧ x ≠ k }

def discard (c : State κ ι) (k : κ) : State κ ι :=
  { c with
    stored := fun x => c.stored x ∧ x ≠ k
    kept := fun j x => c.kept j x ∧ x ≠ k }

def handOver (c : State κ ι) (k : κ) : State κ ι :=
  { c with
    queued := fun x => x = k ∨ c.queued x
    kept := fun j x => c.kept j x ∧ x ≠ k }

/-- Some of what is registered is queued for deletion. -/
def retire (c : State κ ι) (p : κ → Prop) : State κ ι :=
  { c with
    registered := fun x => c.registered x ∧ ¬ p x
    queued := fun x => c.queued x ∨ (c.registered x ∧ p x) }

def claim (c : State κ ι) (i : ι) (p : κ → Prop) : State κ ι :=
  { c with
    claimed := fun j x => (j = i ∧ p x) ∨ (j ≠ i ∧ c.claimed j x)
    deleted := fun j x => j ≠ i ∧ c.deleted j x }

def delete (c : State κ ι) (i : ι) (k : κ) : State κ ι :=
  { c with
    stored := fun x => c.stored x ∧ x ≠ k
    deleted := fun j x => (j = i ∧ x = k) ∨ c.deleted j x }

/-- What is still queued. -/
def finish (c : State κ ι) (p : κ → Prop) : State κ ι := { c with queued := p }

end State

/-- What becomes of objects that are somewhere. -/
inductive Move (c : State κ ι) : State κ ι → Prop
  | none : Move c c
  | register (i : ι) (k : κ) (h : c.kept i k) : Move c (c.register k)
  | discard (i : ι) (k : κ) (h : c.kept i k) : Move c (c.discard k)
  | handOver (i : ι) (k : κ) (h : c.kept i k) : Move c (c.handOver k)
  | retire (p : κ → Prop) : Move c (c.retire p)
  | claim (i : ι) (p : κ → Prop) (h : ∀ k, p k → c.queued k) : Move c (c.claim i p)
  | delete (i : ι) (k : κ) (h : c.claimed i k) : Move c (c.delete i k)
  | finish (p : κ → Prop) (h : ∀ k, p k → c.queued k)
    (h' : ∀ k, c.queued k → p k ∨ ¬ c.stored k) : Move c (c.finish p)

namespace Sound

variable {c : State κ ι} {i : ι} {k : κ} {p : κ → Prop}

/-- An object that is new is kept by the one who stores it. -/
theorem store (hc : Sound c) (h : ¬ c.Known k) : Sound (c.store i k) := by
  simp only [State.Known, not_or, not_exists] at h
  constructor <;> simp only [State.store] <;> grind [Sound]

theorem register (hc : Sound c) (h : c.kept i k) : Sound (c.register k) := by
  constructor <;> simp only [State.register] <;> grind [Sound]

theorem discard (hc : Sound c) (h : c.kept i k) : Sound (c.discard k) := by
  constructor <;> simp only [State.discard] <;> grind [Sound]

theorem handOver (hc : Sound c) (h : c.kept i k) : Sound (c.handOver k) := by
  constructor <;> simp only [State.handOver] <;> grind [Sound]

theorem retire (hc : Sound c) : Sound (c.retire p) := by
  constructor <;> simp only [State.retire] <;> grind [Sound]

theorem claim (hc : Sound c) (h : ∀ k, p k → c.queued k) : Sound (c.claim i p) := by
  constructor <;> simp only [State.claim] <;> grind [Sound]

theorem delete (hc : Sound c) (h : c.claimed i k) : Sound (c.delete i k) := by
  constructor <;> simp only [State.delete] <;> grind [Sound]

theorem finish (hc : Sound c) (h : ∀ k, p k → c.queued k)
    (h' : ∀ k, c.queued k → p k ∨ ¬ c.stored k) : Sound (c.finish p) := by
  constructor <;> simp only [State.finish] <;> grind [Sound]

end Sound

namespace Move

variable {c c' : State κ ι}

/-- Every move keeps custody sound. -/
theorem sound (h : Move c c') (hc : Sound c) : Sound c' := by
  cases h with
  | none => exact hc
  | register i k h => exact hc.register h
  | discard i k h => exact hc.discard h
  | handOver i k h => exact hc.handOver h
  | retire p => exact hc.retire
  | claim i p h => exact hc.claim h
  | delete i k h => exact hc.delete h
  | finish p h h' => exact hc.finish h h'

/-- No move makes an object known. -/
theorem known (h : Move c c') (hc : Sound c) {k : κ} (hk : c'.Known k) : c.Known k := by
  unfold State.Known at hk ⊢
  cases h with
  | none => exact hk
  | register i k' h =>
    simp only [State.register] at hk
    grind [Sound]
  | discard i k' h =>
    simp only [State.discard] at hk
    grind
  | handOver i k' h =>
    simp only [State.handOver] at hk
    grind [Sound]
  | retire p =>
    simp only [State.retire] at hk
    grind
  | claim i p h =>
    simp only [State.claim] at hk
    grind
  | delete i k' h =>
    simp only [State.delete] at hk
    grind
  | finish p h h' =>
    simp only [State.finish] at hk
    grind

end Move

end Custody
