import Refract.Oracle.AnomalyDetector

/-!
# The settlement circuit breaker

`CircuitBreaker` of `circuitBreaker.ts` over its table. Each function is one SQL statement, so one
atomic change of the table; a missing row means closed. The last lemma says that a change of one
row leaves the others alone.
-/

namespace Refract.Oracle

open Lib

inductive BreakerState where
  | closed
  | open
  | halfOpen
  deriving DecidableEq, Repr

/-- A row of `oracle_circuit_breakers`. -/
structure BreakerRow where
  state : BreakerState
  triggerReason : List AnomalyReason
  triggerReadings : List OracleReading
  openedAt : Option ℚ
  halfOpenAt : Option ℚ

/-- The table, by coverage type. -/
abbrev BreakerTable := OrdMap String BreakerRow

/-- Minimum time a breaker stays open before an operator may half-open it. -/
def halfOpenCooldownMs : ℚ := 30 * 60000

namespace BreakerTable

variable (table : BreakerTable)

/-- `CircuitBreaker.getState`. -/
def getState (coverageType : String) : BreakerState :=
  match table.get? coverageType with
  | some row => row.state
  | none => .closed

/-- `CircuitBreaker.open` at database time `now`: the table, and whether a row changed. -/
def openBreaker (coverageType : String) (reason : List AnomalyReason)
    (readings : List OracleReading) (now : ℚ) : BreakerTable × Bool :=
  if table.getState coverageType = .open then (table, false)
  else (table.set coverageType ⟨.open, reason, readings, some now, none⟩, true)

/-- `CircuitBreaker.halfOpen`: only from open, after the cooldown. -/
def halfOpen (table : BreakerTable) (coverageType : String) (now dbNow : ℚ) :
    BreakerTable × Bool :=
  match table.get? coverageType with
  | some ⟨.open, reason, readings, some openedAt, _⟩ =>
    if openedAt ≤ now - halfOpenCooldownMs then
      (table.set coverageType ⟨.halfOpen, reason, readings, some openedAt, some dbNow⟩, true)
    else (table, false)
  | _ => (table, false)

/-- `CircuitBreaker.close`: only from half-open. -/
def close (coverageType : String) : BreakerTable × Bool :=
  match table.get? coverageType with
  | some ⟨.halfOpen, _, _, _, _⟩ =>
    (table.set coverageType ⟨.closed, [], [], none, none⟩, true)
  | _ => (table, false)

variable {table} {coverageType other : String} {now : ℚ}

theorem getState_set {row : BreakerRow} :
    getState (table.set coverageType row) other =
      if other = coverageType then row.state else table.getState other := by
  unfold getState
  rw [OrdMap.get?_set]
  by_cases h : other = coverageType <;> simp [h]

/-- Opening leaves the breaker open and the others as they were. -/
theorem getState_openBreaker {reason : List AnomalyReason} {readings : List OracleReading} :
    getState (table.openBreaker coverageType reason readings now).1 other =
      if other = coverageType then .open else table.getState other := by
  unfold openBreaker
  split
  · rename_i hopen
    by_cases h : other = coverageType
    · simp [h, hopen]
    · simp [h]
  · exact getState_set

/-- A half-opening that changes a row takes it from open to half-open. -/
theorem of_halfOpen {dbNow : ℚ} (h : (table.halfOpen coverageType now dbNow).2 = true) :
    table.getState coverageType = .open ∧ ∀ other,
      getState (table.halfOpen coverageType now dbNow).1 other =
        if other = coverageType then .halfOpen else table.getState other := by
  revert h
  unfold halfOpen
  split
  · rename_i reason readings openedAt halfOpenAt hrow
    split
    · intro _
      exact ⟨by simp [getState, hrow], fun other => getState_set⟩
    · rintro ⟨⟩
  · rintro ⟨⟩

/-- A closing that changes a row takes it from half-open to closed. -/
theorem of_close (h : (table.close coverageType).2 = true) :
    table.getState coverageType = .halfOpen ∧ ∀ other,
      getState (table.close coverageType).1 other =
        if other = coverageType then .closed else table.getState other := by
  revert h
  unfold close
  split
  · rename_i reason readings openedAt halfOpenAt hrow
    intro _
    exact ⟨by simp [getState, hrow], fun other => getState_set⟩
  · rintro ⟨⟩

end BreakerTable

end Refract.Oracle
