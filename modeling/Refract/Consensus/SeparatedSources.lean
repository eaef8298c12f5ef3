import Refract.Consensus.ConsensusCoherence

/-!
# Sources that are clearly apart

With `maxDeviationRatio = 0` the tolerance is the absolute floor. When a strict majority of the
fresh sources reports within an interval no wider than the floor, and everybody else reports more
than the floor away from it, the median falls into the interval, and the split into agreeing and
outlying sources is exact, unless an entry cannot be read (`separated_round_agreed`).
-/

namespace Refract.Consensus

open Lib List

/-- The reports of the fresh, well-formed sources. An id that occurs more than once has none. -/
def freshReports (host : Host) (policy : ValidPolicy) (now : ℚ)
    (observations : List ObservationEntry) : List Report :=
  (observations.filter (standsAlone (entryId host) observations)).filterMap (reportOf policy now)

/-- The weight of every distinct source that reported, valid or not. -/
def reportedWeight (host : Host) (observations : List ObservationEntry) : ℚ :=
  ((sourceIds host observations).map (sourceWeight host observations)).sum

/-- Most sources report within `[a, b]` and carry the quorum; the others report clear of it. -/
structure Separated (policy : ValidPolicy) (fresh : List Report) (totalWeight : ℚ)
    (member : String → Bool) (a b : ℚ) : Prop where
  majority : fresh.countP (fun r => !member r.sourceId) < fresh.countP fun r => member r.sourceId
  inside : ∀ r ∈ fresh, member r.sourceId = true → a ≤ r.value ∧ r.value ≤ b
  width : b - a ≤ policy.absoluteDeviationFloor
  outside : ∀ r ∈ fresh, member r.sourceId = false →
    r.value < a - policy.absoluteDeviationFloor ∨ b + policy.absoluteDeviationFloor < r.value
  count : policy.minAgreeingSources ≤ (fresh.filter fun r => member r.sourceId).length
  weight : policy.quorumRatio ≤
    ((fresh.filter fun r => member r.sourceId).map (·.weight)).sum / totalWeight

variable {policy : ValidPolicy} {fresh fresh' : List Report} {totalWeight center : ℚ}
  {member : String → Bool} {a b : ℚ}

namespace Separated

variable (h : Separated policy fresh totalWeight member a b)

include h

theorem perm (hperm : fresh'.Perm fresh) : Separated policy fresh' totalWeight member a b := by
  have hmembers := hperm.filter fun r => member r.sourceId
  constructor
  · rw [hperm.countP_eq, hperm.countP_eq]
    exact h.majority
  · exact fun r hr => h.inside r (hperm.mem_iff.1 hr)
  · exact h.width
  · exact fun r hr => h.outside r (hperm.mem_iff.1 hr)
  · rw [hmembers.length_eq]
    exact h.count
  · rw [(hmembers.map (·.weight)).sum_eq]
    exact h.weight

/-- The median of all values lies in the interval of the majority. -/
theorem center_mem (hctr : IsMedian (fresh.map (·.value)) center) : a ≤ center ∧ center ≤ b := by
  obtain ⟨⟨low, hlow, hlowMember, hle⟩, high, hhigh, hhighMember, hge⟩ :=
    hctr.exists_of_majority h.majority
  constructor
  · exact (h.inside low hlow hlowMember).1.trans hle
  · exact hge.trans (h.inside high hhigh hhighMember).2

/-- The anomalous sources are those outside the majority. -/
theorem isAnomalous_eq
    (hratio : policy.maxDeviationRatio = 0) (hctr : IsMedian (fresh.map (·.value)) center)
    {r : Report} (hr : r ∈ fresh) : isAnomalous r.value center policy = !member r.sourceId := by
  obtain ⟨hlow, hhigh⟩ := h.center_mem hctr
  have hfloor := policy.absoluteDeviationFloor_nonneg
  have hwidth := h.width
  have htol : deviationTolerance center policy = policy.absoluteDeviationFloor := by
    rw [deviationTolerance, hratio, zero_mul, max_eq_right hfloor]
  cases hmember : member r.sourceId with
  | true =>
    obtain ⟨hfrom, hto⟩ := h.inside r hr hmember
    apply decide_eq_false
    rw [not_lt, abs_le]
    constructor <;> linarith
  | false =>
    apply decide_eq_true
    rw [lt_abs]
    rcases h.outside r hr hmember with hbelow | habove
    · right
      linarith
    · left
      linarith

/-- The quorum that the weights reach is one `meetsQuorum` accepts. -/
theorem meetsQuorum (hwts : ∀ r ∈ fresh, 0 ≤ r.weight) :
    meetsQuorum ((fresh.filter fun r => member r.sourceId).map (·.weight)).sum totalWeight
      policy.quorumRatio = true := by
  have hsum : 0 ≤ ((fresh.filter fun r => member r.sourceId).map (·.weight)).sum := by
    apply sum_nonneg
    exact forall_mem_map.2 fun r hr => hwts r (mem_of_mem_filter hr)
  rw [meetsQuorum_iff hsum]
  refine ⟨?_, h.weight⟩
  -- A ratio is positive only over a positive total.
  by_contra hnot
  have hle := div_nonpos_of_nonneg_of_nonpos hsum (not_lt.1 hnot)
  exact absurd policy.quorumRatio_pos (not_lt.2 (h.weight.trans hle))

end Separated

/-- With a ratio of zero, a majority within the floor that carries the quorum, and everybody else
clear of it, the evaluation agrees on exactly the majority and on a value of its interval, exactly
if every entry can be read. -/
theorem separated_round_agreed (host : Host) (sha : String → String) (p : ConsensusPolicy)
    (policy : ValidPolicy) (hpolicy : validateConsensusPolicy p = .ok policy)
    (hratio : policy.maxDeviationRatio = 0) (now : ℚ) (observations : List ObservationEntry)
    (member : String → Bool) (a b : ℚ)
    (h : Separated policy (freshReports host policy now observations)
      (reportedWeight host observations) member a b) :
    (∃ d v, evaluateConsensus host sha observations p (.finite now) = .ok d ∧
      d.status = .agreed ∧
      d.agreeingSources = sortBy compareUnits
        (((freshReports host policy now observations).filter fun r => member r.sourceId).map
          (·.sourceId)) ∧
      d.outlierSources = sortBy compareUnits
        (((freshReports host policy now observations).filter fun r => !member r.sourceId).map
          (·.sourceId)) ∧
      d.value = some v ∧ a ≤ v ∧ v ≤ b) ↔
    ∀ entry ∈ observations, entry.isReadable = true := by
  simp only [evaluateConsensus_eq_ok hpolicy]
  refine ⟨fun ⟨d, v, hd, _⟩ => hd.1, fun hreadable => ?_⟩
  obtain ⟨round, hround, hscreened⟩ := screenRound_screenedAs (isObject_of_isReadable hreadable)
  have hperm := screenRound_fresh_perm hround
  have hround' := h.perm hperm
  have hne : round.fresh ≠ [] := by
    rintro hnil
    have hmajority := hround'.majority
    simp [hnil] at hmajority
  obtain ⟨center, hcenter⟩ := median_ok hne
  have hanomalous : ∀ r ∈ round.fresh, isAnomalous r.value center policy = !member r.sourceId :=
    fun r hr => hround'.isAnomalous_eq hratio (isMedian_of_median hcenter) hr
  -- What the evaluation computes is the split by membership.
  have hagreeing : (round.fresh.filter fun r => !isAnomalous r.value center policy) =
      round.fresh.filter fun r => member r.sourceId :=
    filter_congr fun r hr => by rw [hanomalous r hr, Bool.not_not]
  have houtliers : (round.fresh.filter fun r => isAnomalous r.value center policy) =
      round.fresh.filter fun r => !member r.sourceId := filter_congr hanomalous
  have hquorum : meetsQuorum ((round.fresh.filter fun r => member r.sourceId).map (·.weight)).sum
      round.totalWeight policy.quorumRatio = true := by
    rw [hscreened.totalWeight]
    apply hround'.meetsQuorum
    intro r hr
    obtain ⟨entry, -, hreport⟩ := mem_filterMap.1 (hscreened.report_of_fresh hr)
    exact weight_nonneg_of_reportOf hreport
  have hmembers : (round.fresh.filter fun r => member r.sourceId) ≠ [] := by
    rw [← length_pos_iff]
    exact policy.one_le_minAgreeingSources.trans hround'.count
  have hstatus := statusOfRound_agreed.2 ⟨hmembers, hround'.count, hquorum⟩
  obtain ⟨v, hv⟩ := median_ok hmembers
  have hvalue : a ≤ v ∧ v ≤ b := by
    apply (isMedian_of_median hv).mem_Icc
    intro x hx
    obtain ⟨r, hr, rfl⟩ := mem_map.1 hx
    obtain ⟨hmem, hmember⟩ := mem_filter.1 hr
    exact hround'.inside r hmem hmember
  refine ⟨_, v, ⟨hreadable, round, hround, by
    simp only [decideRound, if_neg hne, hcenter, exceptOk_bind, hagreeing, houtliers, hstatus, hv,
      if_true]
    rfl⟩, rfl, ?_, ?_, rfl, hvalue⟩
  all_goals exact sortBy_eq_of_perm_lawful ((hperm.filter _).map _)

/-- A policy whose tolerance is two units. -/
def floorPolicy : ConsensusPolicy :=
  { defaultConsensusPolicy with
    maxDeviationRatio := .finite 0, absoluteDeviationFloor := .finite 2 }

def validFloorPolicy : ValidPolicy :=
  { defaultValidPolicy with
    maxDeviationRatio := 0
    absoluteDeviationFloor := 2
    maxDeviationRatio_nonneg := le_rfl
    absoluteDeviationFloor_nonneg := by norm_num }

/-- Three sources within two units and one liar, among garbage. -/
theorem separated_round_agreed_mixedRound :
    ∃ d v, evaluateConsensus plainHost id mixedRound floorPolicy (.finite 1000000) = .ok d ∧
      d.status = .agreed ∧ d.agreeingSources = ["a", "b", "c"] ∧ d.outlierSources = ["liar"] ∧
      d.value = some v ∧ 100 ≤ v ∧ v ≤ 102 := by
  obtain ⟨d, v, hd, hstatus, hagreeing, houtliers, hvalue⟩ :=
    (separated_round_agreed plainHost id floorPolicy validFloorPolicy (by decide +kernel) rfl
      1000000 mixedRound isTrusted 100 102 ⟨by decide +kernel, by decide +kernel,
        by decide +kernel, by decide +kernel, by decide +kernel, by decide +kernel⟩).2
      (by decide +kernel)
  refine ⟨d, v, hd, hstatus, ?_, ?_, hvalue⟩
  · rw [hagreeing]
    decide +kernel
  · rw [houtliers]
    decide +kernel

/-- The same sources with a missing entry: the evaluation throws. -/
theorem separated_round_throws :
    validateConsensusPolicy floorPolicy = .ok validFloorPolicy ∧
    Separated validFloorPolicy
      (freshReports plainHost validFloorPolicy 1000000 (.null :: mixedRound))
      (reportedWeight plainHost (.null :: mixedRound)) isTrusted 100 102 ∧
    evaluateConsensus plainHost id (.null :: mixedRound) floorPolicy (.finite 1000000) =
      .error (.typeError "Cannot read properties of null (reading 'weight')") :=
  ⟨by decide +kernel, ⟨by decide +kernel, by decide +kernel, by decide +kernel, by decide +kernel,
    by decide +kernel, by decide +kernel⟩, by decide +kernel⟩

end Refract.Consensus
