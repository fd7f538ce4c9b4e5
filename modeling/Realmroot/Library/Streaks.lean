import Mathlib.Data.Finset.Card
import Mathlib.Order.Bounds.Basic
import Mathlib.Tactic

/-!
# Days in a row

How many days in a row belong to a set of days: one pass over the days in their order keeps the
length of the row that ends with the last day and the greatest length so far, and a loop counts
back from a day until one is missing.
-/

namespace Streaks

/-- So many days in a row, of which this is the last one. -/
def EndsAt (active : ℤ → Prop) (day : ℤ) (n : ℕ) : Prop := ∀ k < n, active (day - (k : ℕ))

/-- Somewhere so many days in a row. -/
def Occurs (active : ℤ → Prop) (n : ℕ) : Prop := ∃ day, EndsAt active day n

variable {active : ℤ → Prop} {day : ℤ} {n m : ℕ}

theorem EndsAt.mono (h : EndsAt active day n) (hm : m ≤ n) : EndsAt active day m :=
  fun k hk => h k (by omega)

theorem endsAt_succ : EndsAt active day (n + 1) ↔ active day ∧ EndsAt active (day - 1) n := by
  constructor
  · intro h
    refine ⟨by simpa using h 0 (by omega), fun k hk => ?_⟩
    have hnext := h (k + 1) (by omega)
    rwa [Nat.cast_add, Nat.cast_one, add_comm, ← sub_sub] at hnext
  · rintro ⟨hday, h⟩ k hk
    cases k with
    | zero => simpa using hday
    | succ k =>
      rw [Nat.cast_add, Nat.cast_one, add_comm, ← sub_sub]
      exact h k (by omega)

/-! ## The pass over all days -/

/-- The greatest length so far, and the row that ends with the last day. -/
structure Scan where
  longest : ℕ := 0
  running : ℕ := 0
  previous : Option ℤ := none

def Scan.next (scan : Scan) (day : ℤ) : Scan :=
  let running := if scan.previous = some (day - 1) then scan.running + 1 else 1
  { longest := max scan.longest running, running := running, previous := some day }

/-- What a pass knows of the days that it has seen. -/
structure Scan.Knows (scan : Scan) (days : List ℤ) : Prop where
  previous : scan.previous = days.getLast?
  running : ∀ last, scan.previous = some last →
    IsGreatest {n | EndsAt (· ∈ days) last n} scan.running
  longest : IsGreatest {n | Occurs (· ∈ days) n} scan.longest

/-- A day after all others extends the row that ends the day before, or starts one. -/
theorem Scan.Knows.running_next {scan : Scan} {days : List ℤ} (h : scan.Knows days)
    (hsorted : days.Pairwise (· < ·)) (hlater : ∀ d ∈ days, d < day) :
    IsGreatest {n | EndsAt (· ∈ days ++ [day]) day n} (scan.next day).running := by
  have hbefore : ∀ n, EndsAt (· ∈ days ++ [day]) (day - 1) n ↔ EndsAt (· ∈ days) (day - 1) n := by
    intro n
    apply forall₂_congr
    intro k _
    simp only [List.mem_append, List.mem_singleton]
    have hne : day - 1 - (k : ℤ) ≠ day := by omega
    simp [hne]
  have hday : day ∈ days ++ [day] := by simp
  unfold Scan.next
  dsimp only
  split_ifs with hprevious
  · obtain ⟨hrun, hmax⟩ := h.running _ hprevious
    constructor
    · exact endsAt_succ.mpr ⟨hday, (hbefore _).mpr hrun⟩
    · intro n hn
      cases n with
      | zero => omega
      | succ n =>
        have hle := hmax ((hbefore n).mp (endsAt_succ.mp hn).2)
        omega
  · have hmissing : day - 1 ∉ days := by
      intro hmem
      rw [h.previous] at hprevious
      obtain ⟨front, last, rfl⟩ : ∃ front last, days = front ++ [last] :=
        ⟨_, _, (List.dropLast_append_getLast (List.ne_nil_of_mem hmem)).symm⟩
      have hlast := hlater last (by simp)
      have hle : day - 1 ≤ last := by
        rcases List.mem_append.mp hmem with hfront | hsame
        · exact ((List.pairwise_append.mp hsorted).2.2 _ hfront last (by simp)).le
        · exact (List.mem_singleton.mp hsame).le
      apply hprevious
      simp only [List.getLast?_append, List.getLast?_singleton, Option.some_or, Option.some.injEq]
      omega
    constructor
    · exact endsAt_succ.mpr ⟨hday, fun k hk => by omega⟩
    · intro n hn
      by_contra hlt
      have htwo : EndsAt (· ∈ days ++ [day]) day 2 := EndsAt.mono hn (by omega)
      have hone := (hbefore 1).mp (endsAt_succ.mp htwo).2 0 (by omega)
      exact hmissing (by simpa using hone)

theorem Scan.Knows.next {scan : Scan} {days : List ℤ} (h : scan.Knows days)
    (hsorted : days.Pairwise (· < ·)) (hlater : ∀ d ∈ days, d < day) :
    (scan.next day).Knows (days ++ [day]) := by
  have hrunning := h.running_next hsorted hlater
  constructor
  · simp [Scan.next]
  · rintro last hlast
    obtain rfl : day = last := Option.some.inj hlast
    exact hrunning
  · change IsGreatest _ (max scan.longest (scan.next day).running)
    constructor
    · rcases max_choice scan.longest (scan.next day).running with hmax | hmax
      · rw [hmax]
        obtain ⟨d, hd⟩ := h.longest.1
        exact ⟨d, fun k hk => List.mem_append_left _ (hd k hk)⟩
      · rw [hmax]
        exact ⟨day, hrunning.1⟩
    · rintro n ⟨d, hd⟩
      by_cases hsame : d = day
      · subst hsame
        exact le_max_of_le_right (hrunning.2 hd)
      · apply le_max_of_le_left
        apply h.longest.2
        refine ⟨d, fun k hk => ?_⟩
        have hfirst := hd 0 (by omega)
        have hmem := hd k hk
        simp only [Nat.cast_zero, sub_zero, List.mem_append, List.mem_singleton] at hfirst hmem
        have hdlt : d < day := by
          rcases hfirst with hold | hnew
          · exact hlater d hold
          · exact absurd hnew hsame
        rcases hmem with hold | hnew
        · exact hold
        · omega

/-- The pass finds the greatest number of days in a row. -/
theorem longest_scan {days : List ℤ} (hsorted : days.Pairwise (· < ·)) :
    IsGreatest {n | Occurs (· ∈ days) n} (days.foldl Scan.next {}).longest := by
  have hknows : (days.foldl Scan.next {}).Knows days := by
    induction days using List.reverseRecOn with
    | nil =>
      refine ⟨rfl, by simp, ⟨0, fun k hk => absurd hk (Nat.not_lt_zero k)⟩, ?_⟩
      rintro n ⟨d, hd⟩
      cases n with
      | zero => exact Nat.zero_le _
      | succ n => exact absurd (hd 0 (by omega)) (by simp)
    | append_singleton days day ih =>
      obtain ⟨hfront, -, hlater⟩ := List.pairwise_append.mp hsorted
      rw [List.foldl_append, List.foldl_cons, List.foldl_nil]
      exact (ih hfront).next hfront fun d hd => hlater d hd day (by simp)
  exact hknows.longest

/-! ## Counting back -/

/-- How many days in a row end with this one, counting so many at most. -/
def countBack (active : ℤ → Bool) : ℕ → ℤ → ℕ
  | 0, _ => 0
  | limit + 1, day => if active day then countBack active limit (day - 1) + 1 else 0

theorem countBack_spec {active : ℤ → Bool} (limit : ℕ) (day : ℤ) :
    EndsAt (fun d => active d = true) day (countBack active limit day) ∧
      ∀ n ≤ limit, EndsAt (fun d => active d = true) day n → n ≤ countBack active limit day := by
  induction limit generalizing day with
  | zero => exact ⟨fun k hk => by simp [countBack] at hk, fun n hn _ => by omega⟩
  | succ limit ih =>
    unfold countBack
    split_ifs with hday
    · refine ⟨endsAt_succ.mpr ⟨hday, (ih (day - 1)).1⟩, fun n hn h => ?_⟩
      cases n with
      | zero => omega
      | succ n =>
        have hle := (ih (day - 1)).2 n (by omega) (endsAt_succ.mp h).2
        omega
    · refine ⟨fun k hk => by omega, fun n _ h => ?_⟩
      by_contra hpos
      have hfirst := h 0 (by omega)
      simp [hday] at hfirst

/-- No more days in a row than there are days. -/
theorem EndsAt.le_card {days : Finset ℤ} (h : EndsAt (· ∈ days) day n) : n ≤ days.card := by
  have hinj : Function.Injective fun k : ℕ => day - (k : ℤ) := by
    intro a b hab
    simpa using hab
  have hsubset : (Finset.range n).image (fun k : ℕ => day - (k : ℤ)) ⊆ days := by
    intro d hd
    obtain ⟨k, hk, rfl⟩ := Finset.mem_image.mp hd
    exact h k (Finset.mem_range.mp hk)
  have hcard := Finset.card_le_card hsubset
  rwa [Finset.card_image_of_injective _ hinj, Finset.card_range] at hcard

/-- A count that may be as high as the number of days is never cut short. -/
theorem greatest_countBack {active : ℤ → Bool} {days : Finset ℤ} {limit : ℕ}
    (hactive : ∀ d, active d = true ↔ d ∈ days) (hlimit : days.card ≤ limit) :
    IsGreatest {n | EndsAt (· ∈ days) day n} (countBack active limit day) := by
  simp only [← hactive]
  refine ⟨(countBack_spec limit day).1, fun n hn => (countBack_spec limit day).2 n ?_ hn⟩
  have hn' : EndsAt (· ∈ days) day n := fun k hk => (hactive _).mp (hn k hk)
  exact hn'.le_card.trans hlimit

end Streaks
