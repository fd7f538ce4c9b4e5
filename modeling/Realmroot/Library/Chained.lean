import Mathlib.Data.List.Basic

/-!
# Chains of steps

A chain starts at a value and takes steps, each of which ends in a value where
the next one starts. What every step preserves, the whole chain preserves.
-/

namespace Chains

variable {α β : Type} {R Q : α → β → Prop} {last : β → α}

/-- Every step starts where the previous one ended. -/
def Chained (R : α → β → Prop) (last : β → α) : α → List β → Prop
  | _, [] => True
  | a, b :: bs => R a b ∧ Chained R last (last b) bs

theorem Chained.mono (hstep : ∀ a b, R a b → Q a b) {a : α} {bs : List β}
    (h : Chained R last a bs) : Chained Q last a bs := by
  induction bs generalizing a with
  | nil => trivial
  | cons b bs ih =>
    obtain ⟨hb, hbs⟩ := h
    exact ⟨hstep a b hb, ih hbs⟩

/-- A transitive relation that every step satisfies holds between the start of
the chain and the end of each of its steps. -/
theorem Chained.rel {T : α → α → Prop} (htrans : ∀ {a b c}, T a b → T b c → T a c)
    (hstep : ∀ a b, R a b → T a (last b)) {a : α} {bs : List β} (h : Chained R last a bs) :
    ∀ b ∈ bs, T a (last b) := by
  induction bs generalizing a with
  | nil => exact fun b hb => absurd hb List.not_mem_nil
  | cons b bs ih =>
    obtain ⟨hb, hbs⟩ := h
    intro c hc
    rcases List.mem_cons.mp hc with rfl | hc
    · exact hstep a c hb
    · exact htrans (hstep a b hb) (ih hbs c hc)

end Chains
