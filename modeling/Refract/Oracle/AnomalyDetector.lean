import Refract.Lib.OrdMap
import Refract.Lib.Ecma

/-!
# Plausibility checks on oracle readings

`AnomalyDetector` of `anomaly.ts`, with the fields of an oracle reading that the claim scan reads.
A reading that fails a rule of its coverage type is anomalous; an accepted reading joins the
baseline of the rate-of-change rule. The texts of the reasons are their constructors.
-/

namespace Refract.Oracle

open Lib

/-- A reading as the claim scan receives it. The value comes from outside and may be any number. -/
structure OracleReading where
  coverageType : String
  value : JsNumber
  threshold : ℚ
  message : String

/-- Plausibility rules for one coverage type; an unset bound is not checked. -/
structure AnomalyRule where
  floor : Option ℚ
  ceiling : Option ℚ
  rejectZero : Bool
  maxPctChange : Option ℚ
  windowMs : Option ℚ

/-- The rules, by name of the coverage type. -/
abbrev AnomalyRules := List (String × AnomalyRule)

inductive AnomalyReason where
  | noRule (coverageType : String)
  | nonFinite (value : JsNumber)
  | zeroRejected
  | belowFloor (value floor : ℚ)
  | aboveCeiling (value ceiling : ℚ)
  | rateOfChange (change : JsNumber) (windowMs maxPctChange : ℚ)

structure AnomalyVerdict where
  triggered : Bool
  reasons : List AnomalyReason

/-- An accepted reading. -/
structure Sample where
  atTime : ℚ
  value : ℚ

/-- Accepted readings by coverage type. -/
abbrev AnomalyHistory := OrdMap String (List Sample)

variable (history : AnomalyHistory)

/-- The accepted samples of a key that are inside the window. -/
def samplesWithin (key : String) (now windowMs : ℚ) : List Sample :=
  ((history.get? key).getD []).filter fun s => now - windowMs ≤ s.atTime

/-- Percent change from the oldest accepted sample inside the window; `none` without a baseline. -/
def pctChangeWithinWindow (key : String) (value now windowMs : ℚ) : Option JsNumber :=
  (samplesWithin history key now windowMs).head?.map fun baseline =>
    if baseline.value = 0 then (if value = 0 then .finite 0 else .posInf)
    else .finite ((value - baseline.value) / |baseline.value| * 100)

/-- `Math.abs(change) > limit`. -/
def exceeds (change : JsNumber) (limit : ℚ) : Bool :=
  match change with
  | .finite c => decide (limit < |c|)
  | .nan => false
  | .posInf | .negInf => true

/-- The rules a finite value breaks. -/
def brokenRules (rule : AnomalyRule) (key : String) (value now : ℚ) : List AnomalyReason :=
  (if rule.rejectZero ∧ value = 0 then [.zeroRejected] else []) ++
  (match rule.floor with
    | some floor => if value < floor then [.belowFloor value floor] else []
    | none => []) ++
  (match rule.ceiling with
    | some ceiling => if ceiling < value then [.aboveCeiling value ceiling] else []
    | none => []) ++
  (match rule.maxPctChange, rule.windowMs with
    | some maxPct, some windowMs =>
      match pctChangeWithinWindow history key value now windowMs with
      | some change =>
        if exceeds change maxPct then [.rateOfChange change windowMs maxPct] else []
      | none => []
    | _, _ => [])

/-- Adds an accepted sample, when the rule keeps a window. -/
def remember (key : String) (value now : ℚ) (windowMs : Option ℚ) : AnomalyHistory :=
  match windowMs with
  | none => history
  | some w => history.set key (samplesWithin history key now w ++ [⟨now, value⟩])

/-- `AnomalyDetector.evaluate`. -/
def evaluateAnomaly (rules : AnomalyRules) (history : AnomalyHistory) (reading : OracleReading)
    (now : ℚ) : AnomalyHistory × AnomalyVerdict :=
  match rules.lookup reading.coverageType with
  | none => (history, ⟨true, [.noRule reading.coverageType]⟩)
  | some rule =>
    match reading.value.finite? with
    | none => (history, ⟨true, [.nonFinite reading.value]⟩)
    | some value =>
      let reasons := brokenRules history rule reading.coverageType value now
      if reasons = [] then
        (remember history reading.coverageType value now rule.windowMs, ⟨false, []⟩)
      else (history, ⟨true, reasons⟩)

/-- A reading that passes has a finite value. -/
theorem finite_of_evaluateAnomaly {rules : AnomalyRules} {history : AnomalyHistory}
    {reading : OracleReading} {now : ℚ}
    (h : (evaluateAnomaly rules history reading now).2.triggered = false) :
    ∃ value, reading.value = .finite value := by
  unfold evaluateAnomaly at h
  split at h
  · cases h
  split at h
  · cases h
  · rename_i value hvalue
    exact ⟨value, JsNumber.finite?_eq_some.1 hvalue⟩

/-- The rules the service starts with. -/
def defaultAnomalyRules : AnomalyRules :=
  [("StablecoinDepeg", ⟨some (1 / 2), some (3 / 2), true, some 5, some (5 * 60000)⟩),
    ("MarketCrash", ⟨some (-100), some 100, false, none, none⟩),
    ("LiquidationShield", ⟨some 0, some 1, true, none, none⟩),
    ("SmartContractRisk", ⟨some (-100), some 100, false, none, none⟩),
    ("FlightDelay", ⟨some 0, some 2880, false, none, none⟩)]

end Refract.Oracle
