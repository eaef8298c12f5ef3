import Refract.Consensus.LedgerView

/-!
# The consensus engine

`computeConsensus` of `consensus.engine.ts`: pick each source's latest reading inside the policy
window, filter ineligible sources, shadow suspected mirrors, check quorum, and take the weighted
median of the rest. `computeConsensus_contributing` is what callers need of the result: every
contributor names one of the input readings.
-/

namespace Refract.Consensus

open Lib List

inductive IneligibleReason where
  | retired
  | quarantined
  | zeroWeight
  | noReadingInWindow
  | signatureFailed
  deriving DecidableEq, Repr

/-- What the engine found out about one source. -/
structure SourceEligibility where
  sourceId : String
  version : ℚ
  status : SourceStatus
  eligible : Bool
  reason : Option IneligibleReason
  immature : Bool
  weight : ℚ
  effectiveWeight : ℚ
  readingId : Option String
  independent : Bool
  mirrorOf : Option String
  deriving DecidableEq, Repr

/-- Active independence penalty between two sources. -/
structure PairPenalty where
  sourceA : String
  sourceB : String
  factor : ℚ

structure ConsensusInput where
  feedId : String
  atTime : ℚ
  policy : Option (Stamped QuorumPolicyEvent)
  sources : List SourceState
  readings : List ReadingState
  penalties : List PairPenalty

structure ConsensusResult where
  feedId : String
  atTime : ℚ
  outcome : DecisionOutcome
  value : Option ℚ
  triggered : Bool
  reason : String
  policyVersion : Option ℚ
  contributing : List ContributingReading
  eligibility : List SourceEligibility
  deriving DecidableEq, Repr

/-- Six decimal places, halves rounded up. -/
def round (n : ℚ) : ℚ := mathRound (n * 1000000) / 1000000

/-! ## Eligibility -/

/-- One iteration of the loop that finds the latest reading of every source in the window. -/
def latestStep (windowStart atTime : ℚ) (latest : OrdMap String ReadingState)
    (r : ReadingState) : OrdMap String ReadingState :=
  if atTime < r.observedAt ∨ r.observedAt < windowStart then latest
  else match latest.get? r.sourceId with
    | none => latest.set r.sourceId r
    | some prev =>
      if prev.observedAt < r.observedAt ∨ r.observedAt = prev.observedAt ∧ prev.seq < r.seq then
        latest.set r.sourceId r
      else latest

def latestBySource (windowStart atTime : ℚ) (readings : List ReadingState) :
    OrdMap String ReadingState :=
  readings.foldl (latestStep windowStart atTime) OrdMap.empty

def ineligible (s : SourceState) (reading : Option ReadingState) (reason : IneligibleReason) :
    SourceEligibility where
  sourceId := s.sourceId
  version := s.version
  status := s.status
  eligible := false
  reason := some reason
  immature := s.status = .warmup
  weight := s.weight
  effectiveWeight := 0
  readingId := reading.map (·.readingId)
  independent := true
  mirrorOf := none

/-- The eligibility of one source before mirror penalties. -/
def eligibilityOf (latest : OrdMap String ReadingState) (s : SourceState) : SourceEligibility :=
  let reading := latest.get? s.sourceId
  if s.status = .retired then ineligible s reading .retired
  else if s.status = .quarantined then ineligible s reading .quarantined
  else if s.weight ≤ 0 then ineligible s reading .zeroWeight
  else match reading with
    | none => ineligible s none .noReadingInWindow
    | some r =>
      if r.signature = .failed then ineligible s reading .signatureFailed
      else
        { sourceId := s.sourceId, version := s.version, status := s.status, eligible := true,
          reason := none, immature := s.status = .warmup, weight := s.weight,
          effectiveWeight := s.weight, readingId := some r.readingId, independent := true,
          mirrorOf := none }

/-! ## Mirror penalties -/

/-- The entry a map built from the list holds at `id`: the last one with that id. -/
def entryById (id : String) (eligibility : List SourceEligibility) : Option SourceEligibility :=
  eligibility.reverse.find? fun e => e.sourceId = id

/-- Update the first entry with the given id. -/
def updateFirst (id : String) (f : SourceEligibility → SourceEligibility) :
    List SourceEligibility → List SourceEligibility
  | [] => []
  | e :: rest => if e.sourceId = id then f e :: rest else e :: updateFirst id f rest

/-- Assign to the fields of the entry `entryById` returns. -/
def updateById (id : String) (f : SourceEligibility → SourceEligibility)
    (eligibility : List SourceEligibility) : List SourceEligibility :=
  (updateFirst id f eligibility.reverse).reverse

/-- The heavier source of a pair stays, the lighter is shadowed; of equal weights the later id. -/
def keepAndShadow (a b : SourceEligibility) : SourceEligibility × SourceEligibility :=
  if b.weight < a.weight ∨ a.weight = b.weight ∧ compareUnits a.sourceId b.sourceId = .lt then
    (a, b)
  else (b, a)

/-- One iteration of `applyPenalties`. -/
def applyPenalty (eligibility : List SourceEligibility) (p : PairPenalty) :
    List SourceEligibility :=
  match entryById p.sourceA eligibility, entryById p.sourceB eligibility with
  | some a, some b =>
    if a.eligible ∧ b.eligible then
      let (keep, shadow) := keepAndShadow a b
      if shadow.independent then
        updateById shadow.sourceId (fun e =>
          { e with
            independent := false
            mirrorOf := some (keep.mirrorOf.getD keep.sourceId)
            effectiveWeight := round (e.weight * p.factor) }) eligibility
      else eligibility
    else eligibility
  | _, _ => eligibility

/-- Shadows the lighter source of every penalised pair of eligible sources. -/
def applyPenalties (host : Host) (eligibility : List SourceEligibility)
    (penalties : List PairPenalty) : List SourceEligibility :=
  (sortBy (fun x y => (host.localeCompare x.sourceA y.sourceA).then
    (host.localeCompare x.sourceB y.sourceB)) penalties).foldl applyPenalty eligibility

/-! ## Weighted median -/

/-- The exception of reading a property of `undefined`. -/
def undefinedProperty (name : String) : JsError :=
  .typeError ("Cannot read properties of undefined (reading '" ++ name ++ "')")

/-- The first item at which the accumulated weight reaches half of the total. -/
def firstReaching (half acc : ℚ) : List ContributingReading → Option ℚ
  | [] => none
  | item :: rest =>
    if half ≤ acc + item.effectiveWeight then some item.value
    else firstReaching half (acc + item.effectiveWeight) rest

/-- Lower weighted median, ties ordered by value and then source id. -/
def weightedMedian (host : Host) (items : List ContributingReading) : Except JsError ℚ :=
  let sorted := sortBy (fun a b => (compare a.value b.value).then
    (host.localeCompare a.sourceId b.sourceId)) items
  let total := (sorted.map (·.effectiveWeight)).sum
  match firstReaching (total / 2) 0 sorted with
  | some value => .ok value
  | none =>
    match sorted.getLast? with
    | some last => .ok last.value
    | none => .error (undefinedProperty "value")

/-! ## Consensus -/

/-- The contribution of an eligible source. It has a reading, so no exception is thrown here. -/
def contributionOf (latest : OrdMap String ReadingState) (e : SourceEligibility) :
    Except JsError ContributingReading :=
  match e.readingId, latest.get? e.sourceId with
  | some readingId, some r =>
    .ok { readingId, sourceId := e.sourceId, value := r.value,
          effectiveWeight := e.effectiveWeight, independent := some e.independent }
  | _, _ => .error (undefinedProperty "value")

/-- The trigger comparison. -/
def TriggerRule.holds (rule : TriggerRule) (value : ℚ) : Bool :=
  match rule.op with
  | .lt => decide (value < rule.threshold)
  | .gt => decide (rule.threshold < value)

/-- The outcome once a policy, the eligibility and the contributors are known. -/
def decideOutcome (host : Host) (input : ConsensusInput) (policy : QuorumPolicyEvent)
    (eligibility : List SourceEligibility) (contributing : List ContributingReading) :
    Except JsError ConsensusResult :=
  let eligible := eligibility.filter (·.eligible)
  let independentCount := (eligible.filter (·.independent)).length
  let totalWeight := (contributing.map (·.effectiveWeight)).sum
  let noDecision (reason : String) : ConsensusResult :=
    { feedId := input.feedId, atTime := input.atTime, outcome := .noDecision, value := none,
      triggered := false, reason, policyVersion := some policy.version, contributing, eligibility }
  if (independentCount : ℚ) < policy.minSources then
    let mirrored := eligible.length - independentCount
    .ok (noDecision ("quorum_not_met: " ++ toString independentCount ++
      " independent eligible source(s)" ++
      (if mirrored = 0 then "" else " (+" ++ toString mirrored ++ " suspected mirror)") ++
      ", policy requires " ++ host.numberToString policy.minSources))
  else if totalWeight < policy.minTotalWeight then
    .ok (noDecision ("weight_not_met: eligible weight " ++
      host.numberToString (round totalWeight) ++ ", policy requires " ++
      host.numberToString policy.minTotalWeight))
  else do
    let value ← weightedMedian host contributing
    let triggered := policy.trigger.holds value
    .ok { feedId := input.feedId, atTime := input.atTime, outcome := .decision,
          value := some value, triggered,
          reason := (if triggered then "triggered" else "not_triggered") ++ ": " ++
            host.numberToString value ++ " " ++ policy.trigger.op.text ++ " " ++
            host.numberToString policy.trigger.threshold,
          policyVersion := some policy.version, contributing, eligibility }

/-- The eligibility of all sources under a policy. -/
def eligibilityUnder (host : Host) (input : ConsensusInput) (policy : QuorumPolicyEvent) :
    List SourceEligibility :=
  let latest := latestBySource (input.atTime - policy.maxReadingAgeMs) input.atTime input.readings
  applyPenalties host
    ((sortBy (fun a b => host.localeCompare a.sourceId b.sourceId) input.sources).map
      (eligibilityOf latest))
    input.penalties

/-- Pure consensus over one feed at one instant. -/
def computeConsensus (host : Host) (input : ConsensusInput) : Except JsError ConsensusResult :=
  match input.policy with
  | none =>
    .ok { feedId := input.feedId, atTime := input.atTime, outcome := .noDecision, value := none,
          triggered := false, reason := "no_quorum_policy", policyVersion := none,
          contributing := [],
          eligibility := input.sources.map fun s => ineligible s none .noReadingInWindow }
  | some policy => do
      let latest := latestBySource (input.atTime - policy.data.maxReadingAgeMs) input.atTime
        input.readings
      let eligibility := eligibilityUnder host input policy.data
      let contributing ← collect ((eligibility.filter (·.eligible)).map (contributionOf latest))
      decideOutcome host input policy.data eligibility contributing

/-! ## Contributors are readings of the input -/

/-- The latest reading of a source is one of the readings. -/
theorem mem_of_latestBySource {windowStart atTime : ℚ} {readings : List ReadingState}
    {sourceId : String} {r : ReadingState}
    (h : (latestBySource windowStart atTime readings).get? sourceId = some r) : r ∈ readings := by
  revert sourceId r
  refine List.foldlRecOn readings (latestStep windowStart atTime)
    (motive := fun m => ∀ {sourceId : String} {r : ReadingState}, m.get? sourceId = some r →
      r ∈ readings) (by simp) ?_
  intro latest ih e he sourceId r hr
  have hset : (latest.set e.sourceId e).get? sourceId = some r → r ∈ readings := by
    intro hget
    rcases OrdMap.get?_set_eq_some_iff.1 hget with ⟨-, rfl⟩ | ⟨-, hold⟩
    · exact he
    · exact ih hold
  unfold latestStep at hr
  split at hr
  · exact ih hr
  split at hr
  · exact hset hr
  split at hr
  · exact hset hr
  · exact ih hr

section Penalties

variable {β : Type} {g : SourceEligibility → β} {f : SourceEligibility → SourceEligibility}

theorem map_updateFirst (id : String) (hf : ∀ e, g (f e) = g e) (l : List SourceEligibility) :
    (updateFirst id f l).map g = l.map g := by
  induction l with
  | nil => rfl
  | cons _ _ ih =>
    simp only [updateFirst]
    split
    · simp [hf]
    · simp [ih]

theorem map_updateById (id : String) (hf : ∀ e, g (f e) = g e) (l : List SourceEligibility) :
    (updateById id f l).map g = l.map g := by
  rw [updateById, map_reverse, map_updateFirst id hf, map_reverse, reverse_reverse]

variable (hg : ∀ e independent mirrorOf effectiveWeight,
  g { e with independent, mirrorOf, effectiveWeight } = g e)

include hg in
theorem map_applyPenalty (eligibility : List SourceEligibility) (p : PairPenalty) :
    (applyPenalty eligibility p).map g = eligibility.map g := by
  simp only [applyPenalty]
  split
  · split
    · split
      · apply map_updateById
        intro e
        exact hg e _ _ _
      · rfl
    · rfl
  · rfl

include hg in
/-- Penalties change weights and independence only. -/
theorem map_applyPenalties {host : Host} {eligibility : List SourceEligibility}
    {penalties : List PairPenalty} :
    (applyPenalties host eligibility penalties).map g = eligibility.map g := by
  unfold applyPenalties
  generalize sortBy _ penalties = ordered
  induction ordered generalizing eligibility with
  | nil => rfl
  | cons _ _ ih => rw [foldl_cons, ih, map_applyPenalty hg]

end Penalties

variable {latest : OrdMap String ReadingState} {readingId : String}

theorem readingId_eligibilityOf {s : SourceState}
    (h : (eligibilityOf latest s).readingId = some readingId) :
    ∃ r, latest.get? s.sourceId = some r ∧ r.readingId = readingId := by
  have hmap : (latest.get? s.sourceId).map (·.readingId) = some readingId := by
    unfold eligibilityOf at h
    dsimp only at h
    split at h
    · exact h
    split at h
    · exact h
    split at h
    · exact h
    split at h
    · simp [ineligible] at h
    rename_i r hr
    rw [hr]
    split at h
    · simpa [ineligible, hr] using h
    · simpa using h
  simpa using hmap

variable {host : Host} {input : ConsensusInput} {policy : QuorumPolicyEvent} {e : SourceEligibility}

/-- The reading an eligibility entry names is one of the input readings. -/
theorem eligibilityUnder_readingId (he : e ∈ eligibilityUnder host input policy)
    (hid : e.readingId = some readingId) : ∃ r ∈ input.readings, r.readingId = readingId := by
  have hmem : some readingId ∈ (eligibilityUnder host input policy).map (·.readingId) :=
    mem_map.2 ⟨e, he, hid⟩
  rw [eligibilityUnder, map_applyPenalties (fun _ _ _ _ => rfl), map_map] at hmem
  obtain ⟨s, -, hs⟩ := mem_map.1 hmem
  obtain ⟨r, hr, hrid⟩ := readingId_eligibilityOf hs
  exact ⟨r, mem_of_latestBySource hr, hrid⟩

variable {c : ContributingReading}

theorem contributionOf_readingId (h : contributionOf latest e = .ok c) :
    e.readingId = some c.readingId := by
  unfold contributionOf at h
  split at h
  · rename_i readingId r hid hr
    cases h
    exact hid
  · cases h

variable {result : ConsensusResult}

/-- What an outcome says, and what a decision requires. -/
theorem decideOutcome_spec {eligibility : List SourceEligibility}
    {contributing : List ContributingReading}
    (h : decideOutcome host input policy eligibility contributing = .ok result) :
    result.feedId = input.feedId ∧ result.atTime = input.atTime ∧
    result.eligibility = eligibility ∧ result.contributing = contributing ∧
    (result.outcome = .decision → policy.minSources ≤
        (((eligibility.filter (·.eligible)).filter (·.independent)).length : ℚ) ∧
      policy.minTotalWeight ≤ (contributing.map (·.effectiveWeight)).sum ∧
      ∃ value, weightedMedian host contributing = .ok value ∧ result.value = some value ∧
        result.triggered = policy.trigger.holds value) := by
  simp only [decideOutcome] at h
  split at h
  · cases h
    exact ⟨rfl, rfl, rfl, rfl, fun hdec => nomatch hdec⟩
  rename_i hcnt
  split at h
  · cases h
    exact ⟨rfl, rfl, rfl, rfl, fun hdec => nomatch hdec⟩
  rename_i hwt
  obtain ⟨value, hmed, hvalue⟩ := exceptBind_eq_ok h
  cases hvalue
  exact ⟨rfl, rfl, rfl, rfl, fun _ =>
    ⟨not_lt.1 hcnt, not_lt.1 hwt, value, hmed, rfl, rfl⟩⟩

/-- A result is about the feed and instant it was asked for. -/
theorem computeConsensus_about (h : computeConsensus host input = .ok result) :
    result.feedId = input.feedId ∧ result.atTime = input.atTime := by
  unfold computeConsensus at h
  split at h
  · cases h
    exact ⟨rfl, rfl⟩
  · obtain ⟨contributing, -, hdecide⟩ := exceptBind_eq_ok h
    obtain ⟨hfeed, hat, -⟩ := decideOutcome_spec hdecide
    exact ⟨hfeed, hat⟩

/-- Every contributor of a consensus result is one of the input readings. -/
theorem computeConsensus_contributing (h : computeConsensus host input = .ok result)
    (hc : c ∈ result.contributing) : ∃ r ∈ input.readings, r.readingId = c.readingId := by
  unfold computeConsensus at h
  cases hpol : input.policy with
  | none =>
    rw [hpol] at h
    cases h
    simp at hc
  | some =>
    rw [hpol] at h
    obtain ⟨contributing, hcoll, hdecide⟩ := exceptBind_eq_ok h
    obtain ⟨-, -, -, hcont, -⟩ := decideOutcome_spec hdecide
    rw [hcont] at hc
    obtain ⟨e, he, hcontr⟩ := mem_map.1 (mem_of_collect hcoll hc)
    exact eligibilityUnder_readingId (mem_filter.1 he).1 (contributionOf_readingId hcontr)

end Refract.Consensus
