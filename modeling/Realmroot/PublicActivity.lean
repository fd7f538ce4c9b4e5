import Realmroot.Database
import Realmroot.Library.Calendar
import Realmroot.Library.Streaks

/-!
# The activity of an agent in public

The audit trail of an agent is counted by dates, which the database writes as texts. The public
profile of the agent counts the days of the last year that have events, the days in a row that
end today, and the most days in a row.
-/

namespace Realmroot

open Calendar Streaks

/-! ## The counts of days -/

structure PublicActivityDay where
  date : String
  count : ℕ
  deriving DecidableEq

structure PublicActivityOverview where
  total : ℕ
  activeDays : ℕ
  currentStreak : ℕ
  longestStreak : ℕ
  deriving DecidableEq

/-- The day of a time, in UTC. -/
def dayOfTime (time : Time) : ℤ := (time / 86400000 : ℕ)

/-- `date(time / 1000, 'unixepoch')`, of a day. -/
def dateText (day : ℤ) : String := String.ofList (isoDate day)

namespace Database

/-- The events of an agent from a time on. -/
def activityOf (agentIdentityId : String) (since : ℤ) (db : Database) : List AgentAuditEvent :=
  db.agentAuditEvents.filter fun row =>
    row.agentIdentityId = some agentIdentityId && decide (since ≤ row.occurredAt)

/-- `summarizeByDay`, for one agent. -/
def summarizeByDay (agentIdentityId : String) (since : ℤ) (db : Database) :
    List PublicActivityDay :=
  let dates := (db.activityOf agentIdentityId since).map fun row =>
    dateText (dayOfTime row.occurredAt)
  (sortStrings (unique dates)).map fun date => { date := date, count := dates.count date }

end Database

/-! ## The overview -/

/-- `activityYearStart`. -/
def activityYearStart (now : Time) : ℤ := (dayOfTime now - 364) * 86400000

/-- What the loop over the dates keeps; a date that does not parse is next to no other. -/
structure StreakState where
  longestStreak : ℕ := 0
  runningStreak : ℕ := 0
  previous : Option ℤ := none

def StreakState.next (state : StreakState) (dateValue : String) : StreakState :=
  let date := readDate dateValue.toList
  let follows := date.any fun day => state.previous.any fun before => day - before = 1
  let runningStreak := if follows then state.runningStreak + 1 else 1
  { longestStreak := max state.longestStreak runningStreak, runningStreak := runningStreak
    previous := date }

/-- The dates with a count, each once. -/
def activeDates (days : List PublicActivityDay) : List String :=
  unique ((days.filter fun day => 0 < day.count).map (·.date))

/-- `activeDates.has(cursor.toISOString().slice(0, 10))`. -/
def isActiveDate (dates : List String) (cursor : ℤ) : Bool :=
  dates.contains (String.ofList ((isoDate cursor).take 10))

/-- `activityOverview`. The cursor goes back at most once for each date. -/
def activityOverview (days : List PublicActivityDay) (now : Time) : PublicActivityOverview :=
  let dates := activeDates days
  { total := days.foldl (fun sum day => sum + day.count) 0
    activeDays := dates.length
    currentStreak := countBack (isActiveDate dates) dates.length (dayOfTime now)
    longestStreak := ((sortStrings dates).foldl StreakState.next {}).longestStreak }

/-- The overview of `getPublicAgentProfile`. -/
def agentActivity (agentIdentityId : String) (db : Database) (now : Time) :
    PublicActivityOverview :=
  activityOverview (db.summarizeByDay agentIdentityId (activityYearStart now)) now

/-! ## Texts of days -/

section Texts

theorem dateText_injOn {d d' : ℤ} (hd : InRange d) (hd' : InRange d')
    (h : dateText d = dateText d') : d = d' :=
  isoDate_injOn hd hd' (String.ofList_injective h)

variable {days : Finset ℤ} {dates : List String}

/-- The dates of a set of days, each once. -/
structure DatesOf (days : Finset ℤ) (dates : List String) : Prop where
  range : ∀ d ∈ days, InRange d
  nodup : dates.Nodup
  mem : ∀ date, date ∈ dates ↔ ∃ d ∈ days, dateText d = date

/-- In their order, the dates are those of the days in theirs. -/
theorem DatesOf.sorted (h : DatesOf days dates) :
    sortStrings dates = (days.sort (· ≤ ·)).map dateText := by
  have hsort : (days.sort (· ≤ ·)).Pairwise (· < ·) := days.sortedLT_sort.pairwise
  have hlt : ((days.sort (· ≤ ·)).map dateText).Pairwise (· < ·) := by
    rw [List.pairwise_map]
    apply hsort.imp_of_mem
    intro d d' hd hd' hlt
    rw [Finset.mem_sort] at hd hd'
    rw [String.lt_iff_toList_lt, dateText, dateText, String.toList_ofList, String.toList_ofList]
    exact isoDate_lt (h.range d hd) (h.range d' hd') hlt
  have hperm : (sortStrings dates).Perm ((days.sort (· ≤ ·)).map dateText) := by
    have hnodup : ((days.sort (· ≤ ·)).map dateText).Nodup := hlt.imp fun hlt => hlt.ne
    have hdates : (sortStrings dates).Nodup :=
      (List.perm_insertionSort (· ≤ ·) dates).nodup_iff.mpr h.nodup
    rw [List.perm_ext_iff_of_nodup hdates hnodup]
    intro date
    rw [mem_sortStrings, h.mem, List.mem_map]
    simp only [Finset.mem_sort]
  apply hperm.eq_of_pairwise' (List.pairwise_insertionSort _ _)
  exact hlt.imp fun hlt => hlt.le

theorem DatesOf.length_eq (h : DatesOf days dates) : dates.length = days.card := by
  have hsorted := congrArg List.length h.sorted
  rwa [sortStrings, List.length_insertionSort, List.length_map, Finset.length_sort] at hsorted

/-- A date is active exactly when its day is. -/
theorem DatesOf.isActiveDate_iff (h : DatesOf days dates) (cursor : ℤ) :
    isActiveDate dates cursor = true ↔ cursor ∈ days := by
  rw [isActiveDate, List.contains_iff_mem, h.mem]
  constructor
  · rintro ⟨d, hd, htext⟩
    have hiso : isoDate d = (isoDate cursor).take 10 := String.ofList_injective htext
    by_cases hrange : InRange cursor
    · rw [List.take_of_length_le (length_isoDate hrange).le] at hiso
      exact isoDate_injOn (h.range d hd) hrange hiso ▸ hd
    · exact absurd hiso.symm (take_isoDate_ne (h.range d hd) hrange)
  · intro hmem
    refine ⟨cursor, hmem, ?_⟩
    rw [List.take_of_length_le (length_isoDate (h.range cursor hmem)).le, dateText]

end Texts

/-! ## The loop over the dates -/

/-- The state of the loop, as a pass over days has it. -/
def StreakState.scan (state : StreakState) : Scan :=
  { longest := state.longestStreak, running := state.runningStreak, previous := state.previous }

theorem StreakState.scan_next (state : StreakState) {day : ℤ} (h : InRange day) :
    (state.next (dateText day)).scan = state.scan.next day := by
  have hread : readDate (dateText day).toList = some day := by
    rw [dateText, String.toList_ofList, readDate_isoDate h]
  have hfollows : (Option.any (fun before : ℤ => decide (day - before = 1)) state.previous = true) ↔
      state.previous = some (day - 1) := by
    cases state.previous with
    | none => simp
    | some before =>
      simp only [Option.any_some, decide_eq_true_eq, Option.some.injEq]
      omega
  simp only [next, hread, Option.any_some, hfollows, scan, Scan.next]
  congr

theorem StreakState.scan_foldl (state : StreakState) {days : List ℤ}
    (h : ∀ d ∈ days, InRange d) :
    ((days.map dateText).foldl next state).scan = days.foldl Scan.next state.scan := by
  induction days generalizing state with
  | nil => rfl
  | cons day days ih =>
    rw [List.forall_mem_cons] at h
    rw [List.map_cons, List.foldl_cons, List.foldl_cons, ih _ h.2, scan_next state h.1]

/-- The overview of counts whose dates with a count are those of a set of days. -/
theorem activityOverview_spec {days : List PublicActivityDay} {active : Finset ℤ}
    (h : DatesOf active (activeDates days)) (now : Time) :
    (activityOverview days now).activeDays = active.card ∧
      IsGreatest {n | EndsAt (· ∈ active) (dayOfTime now) n}
        (activityOverview days now).currentStreak ∧
      IsGreatest {n | Occurs (· ∈ active) n} (activityOverview days now).longestStreak := by
  refine ⟨h.length_eq, greatest_countBack h.isActiveDate_iff h.length_eq.ge, ?_⟩
  have hrange : ∀ d ∈ active.sort (· ≤ ·), InRange d :=
    fun d hd => h.range d ((Finset.mem_sort _).mp hd)
  have hscan : (((active.sort (· ≤ ·)).map dateText).foldl StreakState.next {}).longestStreak =
      ((active.sort (· ≤ ·)).foldl Scan.next {}).longest :=
    congrArg Scan.longest (StreakState.scan_foldl {} hrange)
  have hlongest := longest_scan (active.sortedLT_sort.pairwise)
  simp only [Finset.mem_sort] at hlongest
  change IsGreatest _ ((sortStrings (activeDates days)).foldl StreakState.next {}).longestStreak
  rw [h.sorted, hscan]
  exact hlongest

/-! ## The events of an agent -/

/-- A day of the year that ends with another one, on which the agent has an event. -/
def ActiveOn (db : Database) (agentIdentityId : String) (today day : ℤ) : Prop :=
  today - 364 ≤ day ∧ ∃ row ∈ db.agentAuditEvents,
    row.agentIdentityId = some agentIdentityId ∧ dayOfTime row.occurredAt = day

section Events

variable {db : Database} {agentIdentityId : String} {now : Time}

/-- The year starts with the day that it starts on. -/
theorem activityYearStart_le (now time : Time) :
    activityYearStart now ≤ time ↔ dayOfTime now - 364 ≤ dayOfTime time := by
  unfold activityYearStart dayOfTime
  omega

theorem mem_activityOf {row : AgentAuditEvent} :
    row ∈ db.activityOf agentIdentityId (activityYearStart now) ↔ row ∈ db.agentAuditEvents ∧
      row.agentIdentityId = some agentIdentityId ∧
        dayOfTime now - 364 ≤ dayOfTime row.occurredAt := by
  unfold Database.activityOf
  rw [List.mem_filter, Bool.and_eq_true, decide_eq_true_eq, decide_eq_true_eq, activityYearStart_le]

/-- The days with events of the year. -/
def daysOf (db : Database) (agentIdentityId : String) (now : Time) : Finset ℤ :=
  ((db.activityOf agentIdentityId (activityYearStart now)).map
    fun row => dayOfTime row.occurredAt).toFinset

theorem mem_daysOf {day : ℤ} :
    day ∈ daysOf db agentIdentityId now ↔ ActiveOn db agentIdentityId (dayOfTime now) day := by
  simp only [daysOf, List.mem_toFinset, List.mem_map, mem_activityOf, ActiveOn]
  constructor
  · rintro ⟨row, ⟨hrow, hagent, hsince⟩, rfl⟩
    exact ⟨hsince, row, hrow, hagent, rfl⟩
  · rintro ⟨hsince, row, hrow, hagent, rfl⟩
    exact ⟨row, ⟨hrow, hagent, hsince⟩, rfl⟩

theorem sum_counts (dates : List String) :
    ((sortStrings (unique dates)).map fun date => dates.count date).sum = dates.length := by
  have hperm : (sortStrings (unique dates)).Perm dates.dedup := by
    have hsorted : (sortStrings (unique dates)).Nodup :=
      (List.perm_insertionSort (· ≤ ·) _).nodup_iff.mpr (nodup_unique dates)
    rw [List.perm_ext_iff_of_nodup hsorted dates.nodup_dedup]
    intro date
    rw [mem_sortStrings, mem_unique, List.mem_dedup]
  rw [(hperm.map _).sum_eq, List.sum_map_count_dedup_eq_length]

/-- Every event of the year is counted once. -/
theorem agentActivity_total :
    (agentActivity agentIdentityId db now).total =
      (db.activityOf agentIdentityId (activityYearStart now)).length := by
  unfold agentActivity activityOverview Database.summarizeByDay
  dsimp only
  rw [List.foldl_map, ← List.foldl_map, ← List.sum_eq_foldl, sum_counts, List.length_map]

/-- The dates with a count are those of the days with events. -/
theorem datesOf_daysOf (h : ∀ row ∈ db.agentAuditEvents,
      row.agentIdentityId = some agentIdentityId → InRange (dayOfTime row.occurredAt)) :
    DatesOf (daysOf db agentIdentityId now)
      (activeDates (db.summarizeByDay agentIdentityId (activityYearStart now))) := by
  constructor
  · intro day hday
    obtain ⟨-, row, hrow, hagent, rfl⟩ := mem_daysOf.mp hday
    exact h row hrow hagent
  · exact nodup_unique _
  · intro date
    simp only [activeDates, mem_unique, List.mem_map, List.mem_filter, decide_eq_true_eq,
      Database.summarizeByDay, mem_sortStrings, daysOf, List.mem_toFinset]
    constructor
    · rintro ⟨_, ⟨⟨text, ⟨row, hrow, rfl⟩, rfl⟩, -⟩, rfl⟩
      exact ⟨_, ⟨row, hrow, rfl⟩, rfl⟩
    · rintro ⟨_, ⟨row, hrow, rfl⟩, rfl⟩
      refine ⟨_, ⟨⟨_, ⟨row, hrow, rfl⟩, rfl⟩, ?_⟩, rfl⟩
      exact List.count_pos_iff.mpr (List.mem_map_of_mem hrow)

/-- The public profile of an agent counts every event of the year once and every day with events
once; the current streak is the most days in a row that end today, and the longest one the most
days in a row. -/
theorem public_activity_counted (db : Database) (agentIdentityId : String) (now : Time)
    (h : ∀ row ∈ db.agentAuditEvents,
      row.agentIdentityId = some agentIdentityId → InRange (dayOfTime row.occurredAt)) :
    (agentActivity agentIdentityId db now).total =
        db.agentAuditEvents.countP (fun row => row.agentIdentityId = some agentIdentityId ∧
          dayOfTime now - 364 ≤ dayOfTime row.occurredAt) ∧
      (agentActivity agentIdentityId db now).activeDays =
        {day | ActiveOn db agentIdentityId (dayOfTime now) day}.ncard ∧
      IsGreatest {n | EndsAt (ActiveOn db agentIdentityId (dayOfTime now)) (dayOfTime now) n}
        (agentActivity agentIdentityId db now).currentStreak ∧
      IsGreatest {n | Occurs (ActiveOn db agentIdentityId (dayOfTime now)) n}
        (agentActivity agentIdentityId db now).longestStreak := by
  obtain ⟨hdays, hcurrent, hlongest⟩ := activityOverview_spec (datesOf_daysOf h) now
  simp only [mem_daysOf] at hcurrent hlongest
  refine ⟨?_, ?_, hcurrent, hlongest⟩
  · rw [agentActivity_total, List.countP_eq_length_filter]
    unfold Database.activityOf
    congr 1
    apply List.filter_congr
    intro row _
    simp only [activityYearStart_le, Bool.decide_and]
  · rw [← Set.ncard_coe_finset] at hdays
    have hset : (daysOf db agentIdentityId now : Set ℤ) =
        {day | ActiveOn db agentIdentityId (dayOfTime now) day} := by
      ext day
      exact mem_daysOf
    rw [← hset]
    exact hdays

end Events

namespace ActivityExample

def eventAt (agentIdentityId : String) (day : ℕ) : AgentAuditEvent where
  id := "event"
  action := "agent.token.issued"
  result := "allowed"
  realmOwned := false
  ownerUserId := some "usr"
  ownerOrganizationId := none
  controllerUserId := some "usr"
  subjectIssuer := none
  subject := none
  agentIdentityId := some agentIdentityId
  hostId := none
  resourceId := none
  resourceConnectionId := none
  accessRequestId := none
  scopes := none
  reasonCode := none
  metadata := none
  occurredAt := day * 86400000 + 3600000

/-- Two days in a row until today, three around the end of a leap February, and days that do not
count: of another agent, and of the year before. -/
def db : Database :=
  { agentAuditEvents := [eventAt "agi" 20000, eventAt "agi" 19999, eventAt "agi" 19783,
      eventAt "agi" 19782, eventAt "agi" 19781, eventAt "agi" 19783, eventAt "other" 19998,
      eventAt "agi" 19600] }

theorem leap_year_counted :
    agentActivity "agi" db (20000 * 86400000) =
        { total := 6, activeDays := 5, currentStreak := 2, longestStreak := 3 } ∧
      5 = {day | ActiveOn db "agi" 20000 day}.ncard ∧
      IsGreatest {n | Occurs (ActiveOn db "agi" 20000) n} 3 := by
  have hrange : ∀ row ∈ db.agentAuditEvents,
      row.agentIdentityId = some "agi" → InRange (dayOfTime row.occurredAt) := by
    unfold InRange
    decide +kernel
  have hoverview : agentActivity "agi" db (20000 * 86400000) =
      { total := 6, activeDays := 5, currentStreak := 2, longestStreak := 3 } := by
    decide +kernel
  have hcounted := public_activity_counted db "agi" (20000 * 86400000) hrange
  rw [hoverview] at hcounted
  exact ⟨hoverview, hcounted.2.1, hcounted.2.2.2⟩

end ActivityExample

end Realmroot
