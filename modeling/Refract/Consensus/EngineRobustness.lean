import Refract.Consensus.EngineOrder
import Refract.Lib.OrderStatistics
import Refract.Lib.WeightedMedian

/-!
# A minority of the weight cannot move the decided value

The engine decides on the lower weighted median of the contributing values. As long as the
adversarial contributors carry less than half of the effective weight, that value stays between the
least and the greatest honest value (`honest_weight_bounds_value`), and the trigger fires as the
honest values have it when they all lie on one side of the threshold.
-/

namespace Refract.Consensus

open Lib List

variable {host : Host} {items : List ContributingReading}

/-- Where the loop of `weightedMedian` stops: the weight before the item has not reached half, the
weight with it has. -/
theorem firstReaching_eq_some {half acc value : ℚ} (hacc : acc ≤ half)
    (h : firstReaching half acc items = some value) :
    ∃ before x after, items = before ++ x :: after ∧ x.value = value ∧
      acc + mass (·.effectiveWeight) before ≤ half ∧
      half ≤ acc + mass (·.effectiveWeight) (before ++ [x]) := by
  induction items generalizing acc with
  | nil => cases h
  | cons item rest ih =>
    simp only [firstReaching] at h
    split at h
    · rename_i hreach
      cases h
      exact ⟨[], item, rest, rfl, rfl, by simpa [mass] using hacc, by simpa [mass] using hreach⟩
    · rename_i hnot
      obtain ⟨before, x, after, rfl, hvalue, hbef, hreach⟩ := ih (not_le.1 hnot).le h
      refine ⟨item :: before, x, after, rfl, hvalue, ?_, ?_⟩
      · simpa [mass, add_assoc] using hbef
      · simpa [mass, add_assoc] using hreach

/-- The loop does not run to the end: the whole weight reaches half. -/
theorem firstReaching_isSome {half acc : ℚ} (hne : items ≠ [])
    (h : half ≤ acc + mass (·.effectiveWeight) items) :
    ∃ value, firstReaching half acc items = some value := by
  induction items generalizing acc with
  | nil => exact absurd rfl hne
  | cons item rest ih =>
    simp only [firstReaching]
    split
    · exact ⟨_, rfl⟩
    rename_i hnot
    have hrest : half ≤ acc + item.effectiveWeight + mass (·.effectiveWeight) rest := by
      simpa [mass, add_assoc] using h
    apply ih ?_ hrest
    rintro rfl
    exact hnot (by simpa [mass] using hrest)

/-- The items in the order `weightedMedian` goes through them. -/
def medianOrder (host : Host) (items : List ContributingReading) : List ContributingReading :=
  sortBy (fun a b => (compare a.value b.value).then (host.localeCompare a.sourceId b.sourceId))
    items

theorem medianOrder_pairwise [Std.TransCmp host.localeCompare] (items : List ContributingReading) :
    (medianOrder host items).Pairwise fun a b => a.value ≤ b.value := by
  refine (sortBy_pairwise items).imp ?_
  intro a b hle
  -- The values decide unless they are equal.
  cases hcmp : compare a.value b.value with
  | lt => exact (compare_lt_iff_lt.1 hcmp).le
  | eq => exact (compare_eq_iff_eq.1 hcmp).le
  | gt =>
    simp only [MayPrecede, hcmp] at hle
    cases hle

/-- With positive weights the engine's value is a weighted median. -/
theorem isWeightedMedian_of_weightedMedian [Std.TransCmp host.localeCompare] {value : ℚ}
    (hpos : ∀ c ∈ items, 0 < c.effectiveWeight) (h : weightedMedian host items = .ok value) :
    IsWeightedMedian (·.effectiveWeight) (·.value) items value := by
  have hperm : (medianOrder host items).Perm items := sortBy_perm
  have hsort := @medianOrder_pairwise host _ items
  have hwt : ∀ c ∈ medianOrder host items, 0 ≤ c.effectiveWeight :=
    fun c hc => (hpos c (hperm.mem_iff.1 hc)).le
  have htot : 0 ≤ mass (·.effectiveWeight) (medianOrder host items) := by
    rw [← massWhere_eq_mass (p := fun _ => true) fun _ _ => rfl]
    exact massWhere_nonneg hwt
  simp only [weightedMedian] at h
  rw [← medianOrder] at h
  have hreaches : medianOrder host items ≠ [] → ∃ value, firstReaching
      (mass (·.effectiveWeight) (medianOrder host items) / 2) 0 (medianOrder host items) =
        some value := fun hne => firstReaching_isSome hne (by linarith)
  split at h
  · rename_i found hfound
    cases h
    obtain ⟨before, x, after, heq, rfl, hbef, hreach⟩ := firstReaching_eq_some
      (div_nonneg htot zero_le_two) hfound
    refine IsWeightedMedian.perm ?_ hperm
    rw [heq] at hsort hwt hbef hreach ⊢
    exact isWeightedMedian_of_reached hsort hwt (by linarith) (by linarith)
  · rename_i hnone
    split at h
    · rename_i last hlast
      obtain ⟨value', hvalue'⟩ := hreaches (by rintro hnil; rw [hnil] at hlast; cases hlast)
      cases hnone.symm.trans hvalue'
    · cases h

/-! ## The decided value -/

variable {input : ConsensusInput} {r : ConsensusResult}

/-- A decision is the weighted median of the contributing values, held against the trigger of the
policy. -/
theorem decision_spec (h : computeConsensus host input = .ok r) (hdec : r.outcome = .decision) :
    ∃ stamped value, input.policy = some stamped ∧
      weightedMedian host r.contributing = .ok value ∧ r.value = some value ∧
      r.triggered = stamped.data.trigger.holds value := by
  cases hpol : input.policy with
  | none =>
    simp only [computeConsensus, hpol] at h
    cases h
    cases hdec
  | some stamped =>
    rw [computeConsensus_eq hpol] at h
    obtain ⟨-, -, -, hcont, hrequires⟩ := decideOutcome_spec h
    obtain ⟨-, -, value, hmed, hvalue, htrig⟩ := hrequires hdec
    rw [← hcont] at hmed
    exact ⟨stamped, value, rfl, hmed, hvalue, htrig⟩

/-- The values of the honest contributors. -/
def honestValues (honest : ContributingReading → Bool) (contributing : List ContributingReading) :
    List ℚ :=
  (contributing.filter honest).map (·.value)

/-- A trigger that all honest values agree on is what a value among them gives. -/
theorem TriggerRule.holds_between {rule : TriggerRule} {lo value hi : ℚ} {b : Bool}
    (hlow : lo ≤ value) (hhigh : value ≤ hi) (hlo : rule.holds lo = b) (hhi : rule.holds hi = b) :
    rule.holds value = b := by
  subst hlo
  simp only [TriggerRule.holds] at hhi ⊢
  cases hop : rule.op with
  | lt =>
    rw [hop] at hhi
    simp only [decide_eq_decide] at hhi ⊢
    exact ⟨fun h => hlow.trans_lt h, fun h => hhigh.trans_lt (hhi.2 h)⟩
  | gt =>
    rw [hop] at hhi
    simp only [decide_eq_decide] at hhi ⊢
    exact ⟨fun h => hhi.1 (h.trans_le hhigh), fun h => h.trans_le hlow⟩

/-- As long as the adversarial contributors carry less than half of the effective weight, the
decided value lies between the least and the greatest honest value, and the trigger is as the honest
values have it when they agree on it. -/
theorem honest_weight_bounds_value [Std.TransCmp host.localeCompare]
    (h : computeConsensus host input = .ok r) (hdecision : r.outcome = .decision)
    (hpositive : ∀ c ∈ r.contributing, 0 < c.effectiveWeight) (honest : ContributingReading → Bool)
    (hminority : ((r.contributing.filter fun c => !honest c).map (·.effectiveWeight)).sum <
      (r.contributing.map (·.effectiveWeight)).sum / 2) :
    ∃ stamped value lo hi, input.policy = some stamped ∧ r.value = some value ∧
      (honestValues honest r.contributing).min? = some lo ∧
      (honestValues honest r.contributing).max? = some hi ∧ lo ≤ value ∧ value ≤ hi ∧
      ∀ b, (∀ v ∈ honestValues honest r.contributing, stamped.data.trigger.holds v = b) →
        r.triggered = b := by
  obtain ⟨stamped, value, hpolicy, hmedian, hvalue, htriggered⟩ := decision_spec h hdecision
  have hweighted := isWeightedMedian_of_weightedMedian hpositive hmedian
  have hmajority : 2 * massWhere (·.effectiveWeight) (fun c => !honest c) r.contributing <
      mass (·.effectiveWeight) r.contributing := by
    simp only [massWhere, mass]
    linarith
  have hnonneg : ∀ c ∈ r.contributing, 0 ≤ c.effectiveWeight := fun c hc => (hpositive c hc).le
  obtain ⟨⟨low, hlow, hlowHonest, hle⟩, high, hhigh, hhighHonest, hge⟩ :=
    hweighted.exists_of_majority hnonneg hmajority
  have hmem : ∀ c ∈ r.contributing, honest c = true →
      c.value ∈ honestValues honest r.contributing :=
    fun c hc hhonest => mem_map_of_mem (mem_filter.2 ⟨hc, hhonest⟩)
  have hlowMem := hmem low hlow hlowHonest
  have hhighMem := hmem high hhigh hhighHonest
  obtain ⟨lo, hi, hlo, hhi, hloLe, hleHi⟩ := between_extrema hlowMem hhighMem hle hge
  refine ⟨stamped, value, lo, hi, hpolicy, hvalue, hlo, hhi, hloLe, hleHi, ?_⟩
  intro b hb
  rw [htriggered]
  exact TriggerRule.holds_between hle hge (hb _ hlowMem) (hb _ hhighMem)

/-- The heaviest source of the input. -/
def isGamma (c : ContributingReading) : Bool := c.sourceId == "gamma"

/-- One honest source against another and its suspected mirror. -/
theorem honest_weight_bounds_value_mirroredInput :
    ∃ r, computeConsensus plainHost mirroredInput = .ok r ∧ r.value = some 95 ∧
      r.triggered = true := by
  have hr : computeConsensus plainHost mirroredInput = .ok _ := eq_ok_get (by decide +kernel)
  obtain ⟨stamped, value, lo, hi, hpolicy, hvalue, hlo, hhi, hle, hge, htrigger⟩ :=
    honest_weight_bounds_value hr (by decide +kernel) (by decide +kernel) isGamma
      (by decide +kernel)
  cases hpolicy
  obtain rfl : lo = 95 := Option.some.inj (hlo.symm.trans (by decide +kernel))
  obtain rfl : hi = 95 := Option.some.inj (hhi.symm.trans (by decide +kernel))
  refine ⟨_, hr, hvalue.trans (congrArg some (le_antisymm hge hle)), htrigger true ?_⟩
  decide +kernel

end Refract.Consensus
