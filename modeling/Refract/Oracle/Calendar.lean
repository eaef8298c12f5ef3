import Mathlib.Tactic.Linarith
import Mathlib.Tactic.Ring

/-!
# Trading calendars and unscheduled halts

`evaluateAt` of `calendar.ts` says whether a feed is expected to be live: the calendar is not
available, or the day is no holiday and the instant lies in an active window. Where the live period
began is found by a walk backwards that reads the windows only (`findWindowOpenedAt`), so
after a holiday the feed counts as live since before its end (`alert_after_holiday`). The alert
is the intended one exactly if the walk stops where the live period begins (`alert_iff_halted`).

The conversion to local time is a parameter. `loaded` is what the cache or the provider answers for
the holiday source of the declaration.
-/

namespace Refract.Oracle.Calendar

/-- A weekly window in local minutes; it may wrap past midnight. -/
structure ActiveWindow where
  days : List ℤ
  startMinutes : ℤ
  endMinutes : ℤ

structure FeedCalendarDeclaration where
  activeWindows : List ActiveWindow
  holidaySource : Option String
  gracePeriodMs : ℚ

structure HolidaySet where
  dates : List String
  available : Bool

/-- The local time of an instant, as far as it is read. -/
structure ZonedParts where
  isoWeekday : ℤ
  dateKey : String
  minutesSinceMidnight : ℤ

/-- The fields of the evaluation that the alert reads. -/
structure ActivityEvaluation where
  expectedLive : Bool
  windowOpenedAt : Option ℚ
  graceDeadline : Option ℚ

/-- The window is `[start, end)`; one of length zero is never active. -/
def minutesInWindow (minutes start stop : ℤ) : Bool :=
  if start = stop then false
  else if start < stop then start ≤ minutes ∧ minutes < stop
  else start ≤ minutes ∨ minutes < stop

/-- A window that wraps past midnight ends on the following day. -/
def isWithinActiveWindows (zoned : ZonedParts) (windows : List ActiveWindow) : Bool :=
  windows = [] ∨ windows.any fun w =>
    if w.startMinutes < w.endMinutes then
      w.days.contains zoned.isoWeekday &&
        minutesInWindow zoned.minutesSinceMidnight w.startMinutes w.endMinutes
    else
      let prevIso := if zoned.isoWeekday = 1 then 7 else zoned.isoWeekday - 1
      (w.days.contains zoned.isoWeekday && decide (w.startMinutes ≤ zoned.minutesSinceMidnight)) ||
        (w.days.contains prevIso && decide (zoned.minutesSinceMidnight < w.endMinutes))

def stepMs : ℚ := 60000

/-- The steps in the 26 hours of the look-back. -/
def lookbackSteps : Nat := 26 * 60

/-- The loop of `findWindowOpenedAt`, with the steps that are left. -/
def walkBack (within : ℚ → Bool) : Nat → ℚ → ℚ
  | 0, cursor => cursor
  | steps + 1, cursor =>
    if within (cursor - stepMs) then walkBack within steps (cursor - stepMs) else cursor

section Evaluation

variable (toZonedParts : ℚ → ZonedParts)

def findWindowOpenedAt (nowMs : ℚ) (windows : List ActiveWindow) : ℚ :=
  if windows = [] then 0
  else walkBack (fun t => isWithinActiveWindows (toZonedParts t) windows) lookbackSteps nowMs

def resolveHolidays (loaded : Option HolidaySet) : Option String → HolidaySet
  | none => ⟨[], true⟩
  | some _ =>
    match loaded with
    | some set => if set.available then set else ⟨[], false⟩
    | none => ⟨[], false⟩

def isExpectedLive (holidaySet : HolidaySet) (windows : List ActiveWindow) (epochMs : ℚ) : Bool :=
  let zoned := toZonedParts epochMs
  if !holidaySet.available then true
  else if holidaySet.dates.contains zoned.dateKey then false
  else isWithinActiveWindows zoned windows

variable (loaded : Option HolidaySet) (declaration : FeedCalendarDeclaration)

def evaluateAt (epochMs : ℚ) : ActivityEvaluation :=
  let holidaySet := resolveHolidays loaded declaration.holidaySource
  if isExpectedLive toZonedParts holidaySet declaration.activeWindows epochMs then
    let windowOpenedAt := findWindowOpenedAt toZonedParts epochMs declaration.activeWindows
    ⟨true, some windowOpenedAt, some (windowOpenedAt + declaration.gracePeriodMs)⟩
  else ⟨false, none, none⟩

end Evaluation

def shouldAlertUnscheduledHalt (lastPublishedAt : Option ℚ) (nowMs : ℚ)
    (evaluation : ActivityEvaluation) : Bool :=
  if !evaluation.expectedLive then false
  else
    match evaluation.graceDeadline with
    | none => false
    | some graceDeadline =>
      if nowMs < graceDeadline then false
      else
        match lastPublishedAt with
        | none => true
        | some published =>
          match evaluation.windowOpenedAt with
          | none => true
          | some opened => !decide (opened ≤ published)

/-! ## The live period -/

/-- Going back from now, `p` holds for `n` minutes and not for one more, or the look-back ends. -/
structure HoldsFor (p : ℚ → Bool) (nowMs : ℚ) (n : Nat) : Prop where
  le : n ≤ lookbackSteps
  holds : ∀ k < n, p (nowMs - (k + 1 : Nat) * stepMs) = true
  ends : n = lookbackSteps ∨ p (nowMs - (n + 1 : Nat) * stepMs) = false

/-- The feed is live for the grace period at least and did not publish in all this time. -/
def Halted (live : ℚ → Bool) (gracePeriodMs : ℚ) (lastPublishedAt : Option ℚ) (nowMs : ℚ) : Prop :=
  live nowMs = true ∧ ∃ n, HoldsFor live nowMs n ∧ gracePeriodMs ≤ n * stepMs ∧
    ∀ published, lastPublishedAt = some published → published < nowMs - n * stepMs

variable {p : ℚ → Bool} {nowMs gracePeriodMs : ℚ} {n n' : Nat} {lastPublishedAt : Option ℚ}

theorem HoldsFor.unique (h : HoldsFor p nowMs n) (h' : HoldsFor p nowMs n') : n = n' := by
  -- The shorter of two such periods would go on.
  have hle : ∀ {a b}, HoldsFor p nowMs a → HoldsFor p nowMs b → a ≤ b := by
    intro a b ha hb
    rcases hb.ends with hend | hstop
    · exact ha.le.trans_eq hend.symm
    by_contra hlt
    rw [ha.holds b (by omega)] at hstop
    cases hstop
  exact Nat.le_antisymm (hle h h') (hle h' h)

theorem walkBack_spec (p : ℚ → Bool) (steps : Nat) (cursor : ℚ) :
    ∃ n ≤ steps, walkBack p steps cursor = cursor - n * stepMs ∧
      (∀ k < n, p (cursor - (k + 1 : Nat) * stepMs) = true) ∧
      (n = steps ∨ p (cursor - (n + 1 : Nat) * stepMs) = false) := by
  induction steps generalizing cursor with
  | zero => exact ⟨0, le_rfl, by simp [walkBack], by simp, .inl rfl⟩
  | succ steps ih =>
    rw [walkBack]
    split
    · rename_i hwithin
      obtain ⟨n, hn, heq, hall, hend⟩ := ih (cursor - stepMs)
      -- One step back and `m` more are `m + 1` steps.
      have hstep : ∀ m : Nat, cursor - stepMs - m * stepMs = cursor - (m + 1 : Nat) * stepMs := by
        intro m
        push_cast
        ring
      refine ⟨n + 1, by omega, heq.trans (hstep n), ?_, ?_⟩
      · rintro (_ | k) hk
        · simpa using hwithin
        · rw [← hstep]
          exact hall k (by omega)
      · rw [← hstep]
        exact hend.imp_left (congrArg (· + 1))
    · rename_i hoff
      exact ⟨0, by omega, by simp, by simp, .inr (by simpa using hoff)⟩

/-- The walk finds how long `p` holds. -/
theorem walkBack_eq_iff :
    walkBack p lookbackSteps nowMs = nowMs - n * stepMs ↔ HoldsFor p nowMs n := by
  obtain ⟨found, hle, heq, hholds, hends⟩ := walkBack_spec p lookbackSteps nowMs
  have hfound : HoldsFor p nowMs found := ⟨hle, hholds, hends⟩
  constructor
  · intro h
    have hsame : (found : ℚ) * stepMs = n * stepMs := by linarith
    rw [mul_left_inj' (by norm_num [stepMs]), Nat.cast_inj] at hsame
    exact hsame ▸ hfound
  · intro h
    rw [h.unique hfound, heq]

theorem alert_iff {opened : ℚ} :
    shouldAlertUnscheduledHalt lastPublishedAt nowMs
        ⟨true, some opened, some (opened + gracePeriodMs)⟩ = true ↔
      opened + gracePeriodMs ≤ nowMs ∧
        ∀ published, lastPublishedAt = some published → published < opened := by
  cases lastPublishedAt <;> simp [shouldAlertUnscheduledHalt]

/-- For every grace period and every last publication the alert is raised exactly for a feed that
has halted, exactly if the walk stops where the live period of `n` minutes begins: the windows hold
for these minutes and not for one more, or there are none and the period begins at zero. -/
theorem alert_iff_halted (toZonedParts : ℚ → ZonedParts) (loaded : Option HolidaySet)
    (windows : List ActiveWindow) (source : Option String) (nowMs : ℚ) :
    let live := isExpectedLive toZonedParts (resolveHolidays loaded source) windows
    (∀ gracePeriodMs lastPublishedAt,
      shouldAlertUnscheduledHalt lastPublishedAt nowMs
          (evaluateAt toZonedParts loaded ⟨windows, source, gracePeriodMs⟩ nowMs) = true ↔
        Halted live gracePeriodMs lastPublishedAt nowMs) ↔
      (live nowMs = true → ∀ n, HoldsFor live nowMs n →
        if windows = [] then nowMs = n * stepMs
        else HoldsFor (fun t => isWithinActiveWindows (toZonedParts t) windows) nowMs n) := by
  intro live
  by_cases hlive : live nowMs = true
  · obtain ⟨n, hfor⟩ : ∃ n, HoldsFor live nowMs n :=
      (walkBack_spec live lookbackSteps nowMs).imp fun n h => ⟨h.1, h.2.2.1, h.2.2.2⟩
    have hhalted : ∀ gracePeriodMs lastPublishedAt,
        Halted live gracePeriodMs lastPublishedAt nowMs ↔ gracePeriodMs ≤ n * stepMs ∧
          ∀ published, lastPublishedAt = some published → published < nowMs - n * stepMs :=
      fun _ _ => ⟨fun ⟨_, n', h, hrest⟩ => hfor.unique h ▸ hrest, fun h => ⟨hlive, n, hfor, h⟩⟩
    have hopened : (if windows = [] then nowMs = n * stepMs
        else HoldsFor (fun t => isWithinActiveWindows (toZonedParts t) windows) nowMs n) ↔
          findWindowOpenedAt toZonedParts nowMs windows = nowMs - n * stepMs := by
      rw [findWindowOpenedAt]
      split
      · rw [eq_comm, ← sub_eq_zero, ← neg_sub, neg_eq_zero, eq_comm]
      · exact walkBack_eq_iff.symm
    have hcond : (live nowMs = true → ∀ n, HoldsFor live nowMs n →
        if windows = [] then nowMs = n * stepMs
        else HoldsFor (fun t => isWithinActiveWindows (toZonedParts t) windows) nowMs n) ↔
          findWindowOpenedAt toZonedParts nowMs windows = nowMs - n * stepMs :=
      ⟨fun h => hopened.1 (h hlive n hfor), fun h _ n' h' => hfor.unique h' ▸ hopened.2 h⟩
    have heval : ∀ gracePeriodMs,
        evaluateAt toZonedParts loaded ⟨windows, source, gracePeriodMs⟩ nowMs = ⟨true, _, _⟩ :=
      fun _ => if_pos hlive
    simp only [hcond, heval, alert_iff, hhalted]
    constructor
    · intro h
      -- Grace periods that end now, counted from either start.
      have hearly := ((h (n * stepMs) none).2 ⟨le_rfl, by simp⟩).1
      have hlate := ((h (nowMs - findWindowOpenedAt toZonedParts nowMs windows) none).1
        ⟨by linarith, by simp⟩).1
      linarith
    · intro h gracePeriodMs lastPublishedAt
      rw [h]
      exact and_congr_left' ⟨fun hgrace => by linarith, fun hgrace => by linarith⟩
  · refine iff_of_true (fun gracePeriodMs _ => iff_of_false ?_ fun h => hlive h.1)
      fun h => absurd h hlive
    have heval : evaluateAt toZonedParts loaded ⟨windows, source, gracePeriodMs⟩ nowMs =
        ⟨false, _, _⟩ := if_neg hlive
    rw [heval]
    exact Bool.false_ne_true

/-! ## The day after a holiday -/

/-- The feed is live on Mondays, from the first minute to noon, and may be late by an hour. -/
def mornings : FeedCalendarDeclaration := ⟨[⟨[1], 1, 720⟩], some "source", 3600000⟩

/-- A clock that shows midnight until two hours before zero, and one o'clock from then on. -/
def stillClock (t : ℚ) : ZonedParts :=
  ⟨1, if t < 0 then "holiday" else "day", if t < -7200000 then 0 else 60⟩

/-- The holiday has just ended: the feed is taken to be live for the two hours before. -/
theorem alert_after_holiday :
    shouldAlertUnscheduledHalt none 0
        (evaluateAt stillClock (some ⟨["holiday"], true⟩) mornings 0) = true ∧
      ¬Halted (isExpectedLive stillClock ⟨["holiday"], true⟩ mornings.activeWindows) 3600000 none
        0 := by
  refine ⟨by decide +kernel, ?_⟩
  rintro ⟨-, n, hfor, hgrace, -⟩
  -- A period of an hour would contain the last minute of the holiday.
  have hpos : 0 < n := by
    by_contra hzero
    obtain rfl : n = 0 := by omega
    norm_num [stepMs] at hgrace
  have hholiday := hfor.holds 0 hpos
  revert hholiday
  decide +kernel

end Refract.Oracle.Calendar
