import Refract.Consensus.EvaluateConsensus

/-!
# A minority of sources cannot move the published value

Fix a set of honest source ids. When the honest sources with a fresh, well-formed report outnumber
the other sources with one, and nobody else reports under an honest id, the screening center lies
in the range of the honest values, and an agreed value lies within the tolerance of the center
(`honest_majority_bounds_value`). What the other entries hold does not matter: a malformed, stale or
repeated entry is no fresh report, and a weight only counts toward the quorum.
-/

namespace Refract.Consensus

open Lib List

section HonestMajority

variable (host : Host) (policy : ValidPolicy) (now : ℚ) (observations : List ObservationEntry)
  (honest : String → Bool)

/-- The fresh, well-formed reports of honest sources. -/
def honestReports : List Report :=
  (observations.filterMap (reportOf policy now)).filter fun r => honest r.sourceId

/-- The fresh, well-formed reports of the other sources. An id that occurs more than once has no
report. -/
def otherReports : List Report :=
  ((observations.filter (standsAlone (entryId host) observations)).filterMap
    (reportOf policy now)).filter fun r => !honest r.sourceId

/-- The honest sources outnumber the others, and their ids are not reused. -/
structure HonestMajority : Prop where
  unique : ∀ entry ∈ observations, honest (entryId host entry) = true →
    standsAlone (entryId host) observations entry = true
  majority : (otherReports host policy now observations honest).length <
    (honestReports policy now observations honest).length

end HonestMajority

variable {host : Host} {policy : ValidPolicy} {now : ℚ} {observations : List ObservationEntry}
  {honest : String → Bool}

namespace HonestMajority

variable (h : HonestMajority host policy now observations honest)

include h

/-- No honest report is lost to a repeated id. -/
theorem honestReports_eq : honestReports policy now observations honest =
      ((observations.filter (standsAlone (entryId host) observations)).filterMap
        (reportOf policy now)).filter fun r => honest r.sourceId := by
  rw [honestReports, filter_filterMap, filterMap_filter, filter_filterMap]
  refine filterMap_congr ?_
  intro entry hent
  cases hreport : reportOf policy now entry with
  | none => simp
  | some r =>
    cases hhon : honest r.sourceId with
    | false =>
      cases standsAlone (entryId host) observations entry <;> simp [hhon]
    | true =>
      have halone := h.unique entry hent (by rw [entryId_of_reportOf hreport, hhon])
      simp [halone]

/-- The honest reports are a majority of the fresh reports of the round. -/
theorem countP_lt {round : Round} (hround : screenRound host observations policy now = .ok round) :
    round.fresh.countP (fun r => !honest r.sourceId) <
      round.fresh.countP fun r => honest r.sourceId := by
  have hperm := screenRound_fresh_perm hround
  have hmaj := h.majority
  rw [h.honestReports_eq, otherReports, ← countP_eq_length_filter,
    ← countP_eq_length_filter] at hmaj
  rw [hperm.countP_eq, hperm.countP_eq]
  exact hmaj

theorem mem_honestReports {round : Round}
    (hround : screenRound host observations policy now = .ok round) {r : Report}
    (hr : r ∈ round.fresh) (hhon : honest r.sourceId = true) :
    r ∈ honestReports policy now observations honest := by
  rw [h.honestReports_eq]
  exact mem_filter.2 ⟨(screenRound_fresh_perm hround).mem_iff.1 hr, hhon⟩

end HonestMajority

/-- A median of the values that are not anomalous is not anomalous itself. -/
theorem abs_sub_le_of_isMedian {fresh : List Report} {center v : ℚ}
    (h : IsMedian ((fresh.filter fun r => !isAnomalous r.value center policy).map (·.value)) v) :
    |v - center| ≤ deviationTolerance center policy := by
  have hclose : ∀ value ∈ (fresh.filter fun r => !isAnomalous r.value center policy).map (·.value),
      center - deviationTolerance center policy ≤ value ∧
        value ≤ center + deviationTolerance center policy := by
    intro value hvalue
    obtain ⟨r, hr, rfl⟩ := mem_map.1 hvalue
    have hnear := (mem_filter.1 hr).2
    simp only [isAnomalous, Bool.not_eq_true', decide_eq_false_iff_not, not_lt] at hnear
    have hbnd := abs_le.1 hnear
    constructor
    · linarith [hbnd.1]
    · linarith [hbnd.2]
  obtain ⟨hlow, hhigh⟩ := h.mem_Icc hclose
  exact abs_le.2 ⟨by linarith, by linarith⟩

/-- The center of a round lies in the range of the honest values. -/
theorem HonestMajority.center_mem (h : HonestMajority host policy now observations honest)
    {round : Round} (hround : screenRound host observations policy now = .ok round) {center : ℚ}
    (hctr : IsMedian (round.fresh.map (·.value)) center) :
    ∃ lo hi, ((honestReports policy now observations honest).map (·.value)).min? = some lo ∧
      ((honestReports policy now observations honest).map (·.value)).max? = some hi ∧
      lo ≤ center ∧ center ≤ hi := by
  obtain ⟨⟨low, hlow, hlowHonest, hle⟩, high, hhigh, hhighHonest, hge⟩ :=
    hctr.exists_of_majority (h.countP_lt hround)
  have hmem : ∀ r ∈ round.fresh, honest r.sourceId = true →
      r.value ∈ (honestReports policy now observations honest).map (·.value) :=
    fun r hr hhon => mem_map_of_mem (h.mem_honestReports hround hr hhon)
  exact between_extrema (hmem low hlow hlowHonest) (hmem high hhigh hhighHonest) hle hge

/-- With an honest majority the evaluation returns unless an entry is missing or cannot be printed,
its center lies between the least and the greatest honest value, and an agreed value lies within the
tolerance of the center, so within the tolerance of the honest range. -/
theorem honest_majority_bounds_value (host : Host) (sha : String → String)
    (p : ConsensusPolicy) (policy : ValidPolicy) (hpolicy : validateConsensusPolicy p = .ok policy)
    (now : ℚ) (observations : List ObservationEntry) (honest : String → Bool)
    (hhonest : HonestMajority host policy now observations honest) :
    ((∀ entry ∈ observations, entry.isReadable = true) →
      ∃ d, evaluateConsensus host sha observations p (.finite now) = .ok d) ∧
    ∀ d, evaluateConsensus host sha observations p (.finite now) = .ok d →
      ∃ center lo hi, d.center = some center ∧
        ((honestReports policy now observations honest).map (·.value)).min? = some lo ∧
        ((honestReports policy now observations honest).map (·.value)).max? = some hi ∧
        lo ≤ center ∧ center ≤ hi ∧
        (d.status = .agreed → ∃ v, d.value = some v ∧
          |v - center| ≤ deviationTolerance center policy ∧
          lo - deviationTolerance center policy ≤ v ∧
          v ≤ hi + deviationTolerance center policy) := by
  simp only [evaluateConsensus_eq_ok hpolicy]
  constructor
  · intro hreadable
    obtain ⟨round, hround⟩ := screenRound_ok (isObject_of_isReadable hreadable)
    obtain ⟨d, hd, -⟩ := decideRound_spec
    exact ⟨d, hreadable, round, hround, hd⟩
  · rintro d ⟨-, round, hround, hdecide⟩
    obtain ⟨d', hd', hspec⟩ := decideRound_spec
    obtain rfl : d' = d := Except.ok.inj (hd'.symm.trans hdecide)
    have hfresh : round.fresh ≠ [] := by
      intro hnil
      have hmajority := hhonest.countP_lt hround
      simp [hnil] at hmajority
    obtain ⟨center, hcenter, hmedian, hvalue⟩ := hspec hfresh
    obtain ⟨lo, hi, hlo, hhi, hle, hge⟩ := hhonest.center_mem hround hmedian
    refine ⟨center, lo, hi, hcenter, hlo, hhi, hle, hge, ?_⟩
    intro hagreed
    obtain ⟨v, hv, hvMedian⟩ := hvalue hagreed
    have hnear := abs_sub_le_of_isMedian hvMedian
    have hbounds := abs_le.1 hnear
    exact ⟨v, hv, hnear, by linarith [hbounds.1], by linarith [hbounds.2]⟩

/-! ## A round with bad entries -/

/-- An entry with number fields. -/
def numberEntry (sourceId : String) (value weight observedAt : ℚ) : ObservationEntry :=
  .object ⟨.string sourceId, .number (.finite value), .number (.finite weight),
    .number (.finite observedAt)⟩

/-- Three honest sources; one that lies, one that reports twice, one that is stale and one that
reports no number. -/
def mixedRound : List ObservationEntry :=
  [numberEntry "liar" 500 1 1000000, numberEntry "a" 100 10 1000000,
    numberEntry "twice" 500 1 1000000, numberEntry "b" 101 10 1000000,
    numberEntry "twice" 500 1 1000000, numberEntry "stale" 500 1 0,
    numberEntry "c" 102 10 1000000,
    .object ⟨.string "broken", .number .nan, .null, .undefined⟩]

/-- The honest sources of the round. -/
def isTrusted (id : String) : Bool := ["a", "b", "c"].contains id

def defaultValidPolicy : ValidPolicy where
  quorumRatio := 2 / 3
  minAgreeingSources := 2
  maxDeviationRatio := 2 / 100
  absoluteDeviationFloor := 0
  maxStalenessMs := 5 * 60000
  maxFutureSkewMs := 30000
  quorumRatio_pos := by norm_num
  quorumRatio_le_one := by norm_num
  one_le_minAgreeingSources := by norm_num
  maxDeviationRatio_nonneg := by norm_num
  absoluteDeviationFloor_nonneg := by norm_num
  maxStalenessMs_nonneg := by norm_num
  maxFutureSkewMs_nonneg := by norm_num

theorem honest_majority_bounds_value_mixedRound :
    ∃ d center v, evaluateConsensus plainHost id mixedRound defaultConsensusPolicy
        (.finite 1000000) = .ok d ∧ d.status = .agreed ∧ d.center = some center ∧
      d.value = some v ∧ 100 ≤ center ∧ center ≤ 102 ∧
      |v - center| ≤ deviationTolerance center defaultValidPolicy := by
  obtain ⟨-, hbounds⟩ := honest_majority_bounds_value plainHost id defaultConsensusPolicy
    defaultValidPolicy (by decide +kernel) 1000000 mixedRound isTrusted
    ⟨by decide +kernel, by decide +kernel⟩
  obtain ⟨center, lo, hi, hcenter, hlo, hhi, hle, hge, hvalue⟩ :=
    hbounds _ (eq_ok_get (by decide +kernel))
  obtain ⟨v, hv, hnear, -⟩ := hvalue (by decide +kernel)
  obtain rfl : lo = 100 := Option.some.inj (hlo.symm.trans (by decide +kernel))
  obtain rfl : hi = 102 := Option.some.inj (hhi.symm.trans (by decide +kernel))
  exact ⟨_, center, v, eq_ok_get _, by decide +kernel, hcenter, hv, hle, hge, hnear⟩

end Refract.Consensus
