import Mathlib.Data.Nat.Digits.Defs
import Mathlib.Data.String.Basic
import Mathlib.Tactic

/-!
# Days and their dates

Days are counted from the first of January 1970 in the Gregorian calendar. The date of a day is
written with four digits of the year and two of the month and of the day, so that the order of
texts is the order of days. A date is read back as the day that it is the date of.
-/

namespace Calendar

/-! ## Years -/

/-- The first day of a year. -/
def dayFromYear (y : ℤ) : ℤ :=
  365 * (y - 1970) + (y - 1969) / 4 - (y - 1901) / 100 + (y - 1601) / 400

def isLeap (y : ℤ) : Bool := y % 4 = 0 && (y % 100 ≠ 0 || y % 400 = 0)

/-- The number of days of a year. -/
def yearLength (leap : Bool) : ℤ := if leap then 366 else 365

theorem dayFromYear_succ (y : ℤ) :
    dayFromYear (y + 1) = dayFromYear y + yearLength (isLeap y) := by
  by_cases hleap : isLeap y = true
  · have hyear : y % 4 = 0 ∧ (y % 100 ≠ 0 ∨ y % 400 = 0) := by
      simpa [isLeap] using hleap
    simp only [yearLength, if_pos hleap, dayFromYear]
    omega
  · have hnot : ¬ (y % 4 = 0 ∧ (y % 100 ≠ 0 ∨ y % 400 = 0)) := by
      simpa [isLeap] using hleap
    simp only [yearLength, if_neg hleap, dayFromYear]
    omega

theorem yearLength_pos (leap : Bool) : 0 < yearLength leap := by
  cases leap <;> simp [yearLength]

theorem dayFromYear_strictMono : StrictMono dayFromYear := by
  apply strictMono_int_of_lt_succ
  intro y
  rw [dayFromYear_succ]
  have hpos := yearLength_pos (isLeap y)
  omega

/-- The year of a day: a year that is near, or one next to it. -/
def yearFromDay (d : ℤ) : ℤ :=
  let y := 1970 + d * 400 / 146097
  if d < dayFromYear y then y - 1 else if dayFromYear (y + 1) ≤ d then y + 1 else y

theorem yearFromDay_spec (d : ℤ) :
    dayFromYear (yearFromDay d) ≤ d ∧ d < dayFromYear (yearFromDay d + 1) := by
  unfold yearFromDay
  dsimp only
  split_ifs with hbefore hafter
  · rw [Int.sub_add_cancel]
    refine ⟨?_, hbefore⟩
    unfold dayFromYear at *
    omega
  · refine ⟨hafter, ?_⟩
    unfold dayFromYear at *
    omega
  · exact ⟨not_lt.mp hbefore, not_le.mp hafter⟩

/-- The year of a day is the one in which it lies. -/
theorem yearFromDay_eq {d y : ℤ} (h : dayFromYear y ≤ d) (h' : d < dayFromYear (y + 1)) :
    yearFromDay d = y := by
  obtain ⟨hspec, hspec'⟩ := yearFromDay_spec d
  have hle := dayFromYear_strictMono.lt_iff_lt.mp (hspec.trans_lt h')
  have hge := dayFromYear_strictMono.lt_iff_lt.mp (h.trans_lt hspec')
  omega

theorem yearFromDay_mono {d d' : ℤ} (h : d ≤ d') : yearFromDay d ≤ yearFromDay d' := by
  have hspec := (yearFromDay_spec d).1
  have hspec' := (yearFromDay_spec d').2
  have hlt := dayFromYear_strictMono.lt_iff_lt.mp ((hspec.trans h).trans_lt hspec')
  omega

/-! ## Months -/

/-- The days of a year before a month, where January is the first one. -/
def monthStart (leap : Bool) (m : ℕ) : ℕ :=
  [0, 31, 59, 90, 120, 151, 181, 212, 243, 273, 304, 334, 365].getD (m - 1) 0 +
    if leap ∧ 3 ≤ m then 1 else 0

/-- The month of a day of the year. -/
def monthOf (leap : Bool) (n : ℕ) : ℕ :=
  ((List.range 12).filter fun m => monthStart leap (m + 1) ≤ n).length

theorem monthOf_spec (leap : Bool) {n : ℕ} (h : n < yearLength leap) :
    (1 ≤ monthOf leap n ∧ monthOf leap n ≤ 12) ∧ monthStart leap (monthOf leap n) ≤ n ∧
      n < monthStart leap (monthOf leap n) + 31 := by
  have hall : ∀ leap : Bool, ∀ n ∈ List.range 366, n < (if leap then 366 else 365) →
      (1 ≤ monthOf leap n ∧ monthOf leap n ≤ 12) ∧ monthStart leap (monthOf leap n) ≤ n ∧
        n < monthStart leap (monthOf leap n) + 31 := by
    decide +kernel
  have hn : n < if leap then 366 else 365 := by
    cases leap <;> simpa [yearLength] using h
  apply hall leap n _ hn
  rw [List.mem_range]
  split_ifs at hn <;> omega

theorem monthOf_mono (leap : Bool) {n n' : ℕ} (h : n ≤ n') : monthOf leap n ≤ monthOf leap n' := by
  unfold monthOf
  apply List.Sublist.length_le
  apply List.monotone_filter_right
  intro m hm
  simp only [decide_eq_true_eq] at hm ⊢
  omega

/-! ## Dates -/

/-- The year, the month and the day of the month. -/
structure Date where
  year : ℤ
  month : ℕ
  day : ℕ
  deriving DecidableEq

/-- The day of the year, from zero on. -/
def dayOfYear (d : ℤ) : ℕ := (d - dayFromYear (yearFromDay d)).toNat

theorem dayOfYear_spec (d : ℤ) : d = dayFromYear (yearFromDay d) + dayOfYear d ∧
    (dayOfYear d : ℤ) < yearLength (isLeap (yearFromDay d)) := by
  obtain ⟨hspec, hspec'⟩ := yearFromDay_spec d
  rw [dayFromYear_succ] at hspec'
  unfold dayOfYear
  omega

def dateOf (d : ℤ) : Date :=
  let leap := isLeap (yearFromDay d)
  let month := monthOf leap (dayOfYear d)
  { year := yearFromDay d, month := month, day := dayOfYear d - monthStart leap month + 1 }

/-- The day of a date. -/
def dayOf (date : Date) : ℤ :=
  dayFromYear date.year + monthStart (isLeap date.year) date.month + date.day - 1

theorem dayOf_dateOf (d : ℤ) : dayOf (dateOf d) = d := by
  obtain ⟨hday, hlt⟩ := dayOfYear_spec d
  have hmonth := (monthOf_spec (isLeap (yearFromDay d)) hlt).2.1
  simp only [dayOf, dateOf]
  omega

theorem dateOf_range (d : ℤ) : ((dateOf d).month ≤ 12 ∧ 1 ≤ (dateOf d).month) ∧
    1 ≤ (dateOf d).day ∧ (dateOf d).day ≤ 31 := by
  obtain ⟨-, hlt⟩ := dayOfYear_spec d
  obtain ⟨hmonth, hstart, hend⟩ := monthOf_spec (isLeap (yearFromDay d)) hlt
  simp only [dateOf]
  omega

/-- A later day has a later date. -/
theorem dateOf_lt {d d' : ℤ} (h : d < d') :
    (dateOf d).year < (dateOf d').year ∨ (dateOf d).year = (dateOf d').year ∧
      ((dateOf d).month < (dateOf d').month ∨ (dateOf d).month = (dateOf d').month ∧
        (dateOf d).day < (dateOf d').day) := by
  obtain ⟨hday, hlt⟩ := dayOfYear_spec d
  obtain ⟨hday', hlt'⟩ := dayOfYear_spec d'
  rcases (yearFromDay_mono h.le).lt_or_eq with hyear | hyear
  · exact Or.inl hyear
  · refine Or.inr ⟨hyear, ?_⟩
    have hn : dayOfYear d < dayOfYear d' := by
      rw [hyear] at hday
      omega
    have hstart := (monthOf_spec (isLeap (yearFromDay d)) hlt).2.1
    simp only [dateOf]
    rw [← hyear]
    rcases (monthOf_mono (isLeap (yearFromDay d)) hn.le).lt_or_eq with hmonth | hmonth
    · exact Or.inl hmonth
    · refine Or.inr ⟨hmonth, ?_⟩
      rw [← hmonth]
      omega

/-! ## Digits -/

/-- The last digits of a number, as many as asked for. -/
def pad : ℕ → ℕ → List Char
  | 0, _ => []
  | w + 1, n => Nat.digitChar (n / 10 ^ w % 10) :: pad w n

/-- The number that digits write. -/
def unpad (text : List Char) : ℕ := text.foldl (fun n c => 10 * n + (c.toNat - '0'.toNat)) 0

@[simp] theorem length_pad (w n : ℕ) : (pad w n).length = w := by
  induction w with
  | zero => rfl
  | succ w ih => simp [pad, ih]

theorem digitChar_lt {a b : ℕ} (ha : a < 10) (hb : b < 10) :
    Nat.digitChar a < Nat.digitChar b ↔ a < b := by
  have hall : ∀ a ∈ List.range 10, ∀ b ∈ List.range 10,
      (Nat.digitChar a < Nat.digitChar b ↔ a < b) := by decide
  exact hall a (List.mem_range.mpr ha) b (List.mem_range.mpr hb)

theorem toNat_digitChar {a : ℕ} (ha : a < 10) : (Nat.digitChar a).toNat - '0'.toNat = a := by
  have hall : ∀ a ∈ List.range 10, (Nat.digitChar a).toNat - '0'.toNat = a := by decide
  exact hall a (List.mem_range.mpr ha)

theorem unpad_pad_aux (w n k : ℕ) :
    (pad w n).foldl (fun n c => 10 * n + (c.toNat - '0'.toNat)) k = k * 10 ^ w + n % 10 ^ w := by
  induction w generalizing k with
  | zero => simp [pad, Nat.mod_one]
  | succ w ih =>
    rw [pad, List.foldl_cons, toNat_digitChar (Nat.mod_lt _ (by norm_num)), ih, pow_succ,
      Nat.mod_mul]
    ring

theorem unpad_pad {w n : ℕ} (h : n < 10 ^ w) : unpad (pad w n) = n := by
  rw [unpad, unpad_pad_aux, Nat.mod_eq_of_lt h]
  simp

/-- Texts of the same number of digits are ordered as their numbers. -/
theorem pad_lt {w a b : ℕ} (h : a % 10 ^ w < b % 10 ^ w) : pad w a < pad w b := by
  induction w with
  | zero => simp [Nat.mod_one] at h
  | succ w ih =>
    rw [pow_succ, Nat.mod_mul, Nat.mod_mul] at h
    rw [pad, pad, List.cons_lt_cons_iff]
    have ha : a / 10 ^ w % 10 < 10 := Nat.mod_lt _ (by norm_num)
    have hb : b / 10 ^ w % 10 < 10 := Nat.mod_lt _ (by norm_num)
    rcases lt_trichotomy (a / 10 ^ w % 10) (b / 10 ^ w % 10) with hlt | heq | hgt
    · exact Or.inl ((digitChar_lt ha hb).mpr hlt)
    · rw [heq] at h ⊢
      exact Or.inr ⟨rfl, ih (by omega)⟩
    · exfalso
      have hpos : 0 < 10 ^ w := Nat.pow_pos (by norm_num)
      have hrest : a % 10 ^ w < 10 ^ w := Nat.mod_lt _ hpos
      have hmul : 10 ^ w * (b / 10 ^ w % 10 + 1) ≤ 10 ^ w * (a / 10 ^ w % 10) :=
        Nat.mul_le_mul_left _ hgt
      have hb' : b % 10 ^ w < 10 ^ w := Nat.mod_lt _ hpos
      rw [Nat.mul_add, Nat.mul_one] at hmul
      omega

theorem append_lt_append {a a' b b' : List Char} (hlength : a.length = a'.length)
    (h : a < a' ∨ a = a' ∧ b < b') : a ++ b < a' ++ b' := by
  induction a generalizing a' with
  | nil =>
    obtain rfl := List.length_eq_zero_iff.mp hlength.symm
    simpa using h
  | cons c a ih =>
    cases a' with
    | nil => simp at hlength
    | cons c' a' =>
      simp only [List.cons_append, List.cons_lt_cons_iff, List.cons.injEq] at h ⊢
      simp only [List.length_cons, Nat.add_right_cancel_iff] at hlength
      rcases h with (hlt | ⟨rfl, hlt⟩) | ⟨⟨rfl, rfl⟩, hlt⟩
      · exact Or.inl hlt
      · exact Or.inr ⟨rfl, ih hlength (Or.inl hlt)⟩
      · exact Or.inr ⟨rfl, ih hlength (Or.inr ⟨rfl, hlt⟩)⟩

/-! ## Texts -/

/-- A year with four digits, or with a sign and six. -/
def isoYear (y : ℤ) : List Char :=
  if 0 ≤ y ∧ y < 10000 then pad 4 y.toNat
  else (if y < 0 then '-' else '+') :: pad 6 y.natAbs

def isoDate (d : ℤ) : List Char :=
  isoYear (dateOf d).year ++ '-' :: (pad 2 (dateOf d).month ++ '-' :: pad 2 (dateOf d).day)

/-- The days of the years of four digits. -/
def InRange (d : ℤ) : Prop := dayFromYear 0 ≤ d ∧ d < dayFromYear 10000

instance (d : ℤ) : Decidable (InRange d) := inferInstanceAs (Decidable (_ ∧ _))

/-- The day whose date a text is, in a year of four digits. -/
def readDate (text : List Char) : Option ℤ :=
  let date : Date :=
    { year := unpad (text.take 4), month := unpad ((text.drop 5).take 2)
      day := unpad ((text.drop 8).take 2) }
  if isoDate (dayOf date) = text then some (dayOf date) else none

theorem year_range {d : ℤ} (h : InRange d) : 0 ≤ (dateOf d).year ∧ (dateOf d).year < 10000 := by
  obtain ⟨hspec, hspec'⟩ := yearFromDay_spec d
  have hlt := dayFromYear_strictMono.lt_iff_lt.mp (h.1.trans_lt hspec')
  have hlt' := dayFromYear_strictMono.lt_iff_lt.mp (hspec.trans_lt h.2)
  change 0 ≤ yearFromDay d ∧ yearFromDay d < 10000
  omega

theorem inRange_of_year {d : ℤ} (h : 0 ≤ (dateOf d).year ∧ (dateOf d).year < 10000) :
    InRange d := by
  obtain ⟨hspec, hspec'⟩ := yearFromDay_spec d
  have hfirst := dayFromYear_strictMono.monotone h.1
  have hlast : yearFromDay d + 1 ≤ 10000 := h.2
  exact ⟨hfirst.trans hspec, hspec'.trans_le (dayFromYear_strictMono.monotone hlast)⟩

theorem isoDate_eq {d : ℤ} (h : InRange d) : isoDate d =
    pad 4 (dateOf d).year.toNat ++
      '-' :: (pad 2 (dateOf d).month ++ '-' :: pad 2 (dateOf d).day) := by
  rw [isoDate, isoYear, if_pos (year_range h)]

theorem length_isoDate {d : ℤ} (h : InRange d) : (isoDate d).length = 10 := by
  simp [isoDate_eq h]

theorem readDate_isoDate {d : ℤ} (h : InRange d) : readDate (isoDate d) = some d := by
  obtain ⟨hyear, hyear'⟩ := year_range h
  obtain ⟨hmonth, hday⟩ := dateOf_range d
  have hdate : (⟨(unpad ((isoDate d).take 4) : ℕ), unpad (((isoDate d).drop 5).take 2),
      unpad (((isoDate d).drop 8).take 2)⟩ : Date) = dateOf d := by
    have htake : (isoDate d).take 4 = pad 4 (dateOf d).year.toNat := by
      simp [isoDate_eq h]
    have hdrop : ((isoDate d).drop 5).take 2 = pad 2 (dateOf d).month := by
      simp [isoDate_eq h, List.drop_append, List.drop_eq_nil_of_le]
    have hlast : ((isoDate d).drop 8).take 2 = pad 2 (dateOf d).day := by
      simp [isoDate_eq h, List.drop_append, List.take_of_length_le, List.drop_eq_nil_of_le]
    rw [htake, hdrop, hlast, unpad_pad (by omega), unpad_pad (by omega), unpad_pad (by omega),
      Int.toNat_of_nonneg hyear]
  unfold readDate
  simp only [hdate, dayOf_dateOf, if_true]

theorem isoDate_injOn {d d' : ℤ} (hd : InRange d) (hd' : InRange d')
    (h : isoDate d = isoDate d') : d = d' := by
  have hread := readDate_isoDate hd
  rw [h, readDate_isoDate hd'] at hread
  exact (Option.some.inj hread).symm

/-- The date of a day outside the years of four digits starts with a sign. -/
theorem take_isoDate_ne {d d' : ℤ} (hd : InRange d) (hd' : ¬ InRange d') :
    (isoDate d').take 10 ≠ isoDate d := by
  have hsign : ∀ n < 10, Nat.digitChar n ≠ '-' ∧ Nat.digitChar n ≠ '+' := by
    intro n hn
    have hall : ∀ n ∈ List.range 10, Nat.digitChar n ≠ '-' ∧ Nat.digitChar n ≠ '+' := by decide
    exact hall n (List.mem_range.mpr hn)
  have hnot : ¬ (0 ≤ (dateOf d').year ∧ (dateOf d').year < 10000) :=
    fun hyear => hd' (inRange_of_year hyear)
  intro h
  have hhead := congrArg List.head? h
  rw [isoDate_eq hd, isoDate, isoYear, if_neg hnot] at hhead
  simp only [List.cons_append, List.take_succ_cons, List.head?_cons, pad,
    Option.some.injEq] at hhead
  obtain ⟨hminus, hplus⟩ := hsign _ (Nat.mod_lt ((dateOf d).year.toNat / 10 ^ 3) (by norm_num))
  split_ifs at hhead
  · exact hminus hhead.symm
  · exact hplus hhead.symm

/-- The order of dates is the order of days. -/
theorem isoDate_lt {d d' : ℤ} (hd : InRange d) (hd' : InRange d') (h : d < d') :
    isoDate d < isoDate d' := by
  obtain ⟨hyear, hyearlt⟩ := year_range hd
  obtain ⟨hyear', hyearlt'⟩ := year_range hd'
  obtain ⟨hmonth, hday⟩ := dateOf_range d
  obtain ⟨hmonth', hday'⟩ := dateOf_range d'
  rw [isoDate_eq hd, isoDate_eq hd']
  apply append_lt_append (by simp)
  rcases dateOf_lt h with hlt | ⟨heq, hrest⟩
  · exact Or.inl (pad_lt (by omega))
  · refine Or.inr ⟨by rw [heq], ?_⟩
    rw [List.cons_lt_cons_iff]
    refine Or.inr ⟨rfl, append_lt_append (by simp) ?_⟩
    rcases hrest with hlt | ⟨heq, hlt⟩
    · exact Or.inl (pad_lt (by omega))
    · refine Or.inr ⟨by rw [heq], ?_⟩
      rw [List.cons_lt_cons_iff]
      exact Or.inr ⟨rfl, pad_lt (by omega)⟩

end Calendar
