import Mathlib.Algebra.Order.BigOperators.Group.List
import Refract.Consensus.ConsensusRobustness

/-!
# One decision for every order of the observations

What an evaluation makes of a round depends on each source's own observations only, so the order in
which observations come does not matter. `screenRound_screenedAs` says how a round follows from the
screening of each source, `decideRound_decidedOn` how the decision follows from the round, and
`decideRound_eq_of_perm` that a round can be reordered.

Together they make the decision coherent (`CoherentDecision`): every source id is in one of four
sorted lists, and status, value and trust tier are what the lists say. The exceptions are an entry
that is missing altogether, whose weight cannot be read, and a field that cannot be printed: then
there is no decision at all (`coherent_iff_all_readable`).
-/

namespace Refract.Consensus

open Lib List

/-! ## Source by source -/

section Sources

variable (host : Host) (policy : ValidPolicy) (now : ℚ) (observations : List ObservationEntry)

/-- The distinct ids under which observations are filed. -/
def sourceIds : List String := (observations.map (entryId host)).dedup

/-- What screening makes of the observations of one source. -/
def sourceScreening (id : String) : Screening :=
  screen policy now (groupAt (entryId host) observations id)

/-- What one source adds to the quorum denominator. -/
def sourceWeight (id : String) : ℚ :=
  (((groupAt (entryId host) observations id).filterMap entryWeight?).max?).getD 0

/-- A round in which each source is screened as given. -/
structure ScreenedAs (ids : List String) (screening : String → Screening) (weight : String → ℚ)
    (round : Round) : Prop where
  invalid : round.invalid.Perm (ids.filter fun id => screening id = .invalid)
  stale : round.stale.Perm (ids.filter fun id => screening id = .stale)
  fresh : round.fresh.Perm (ids.filterMap fun id => (screening id).fresh?)
  totalWeight : round.totalWeight = (ids.map weight).sum

end Sources

variable {round : Round} {observations' : List ObservationEntry} {r : Report} {host : Host}
  {policy : ValidPolicy} {now : ℚ} {observations : List ObservationEntry}
  {copies : List ObservationEntry}

/-- The groups of a round are those of the distinct ids. -/
theorem groups_perm (host : Host) (observations : List ObservationEntry) :
    (groupBySource host observations).entries.Perm ((sourceIds host observations).map
        fun id => (id, groupAt (entryId host) observations id)) :=
  entries_groupBy_perm (entryId host) observations

/-- The ids of the groups that are screened as `outcome`. -/
theorem screenedIds_perm (outcome : Screening) :
    (((groupBySource host observations).entries.filter
        fun group => screen policy now group.2 = outcome).map (·.1)).Perm
      ((sourceIds host observations).filter
        fun id => sourceScreening host policy now observations id = outcome) := by
  have hperm := ((groups_perm host observations).filter
    fun group => screen policy now group.2 = outcome).map (·.1)
  rw [filter_map, map_map] at hperm
  refine hperm.trans (.of_eq ?_)
  exact map_id _

/-- A round without missing entries is screened source by source. -/
theorem screenRound_screenedAs (h : ∀ entry ∈ observations, entry.isObject = true) :
    ∃ round, screenRound host observations policy now = .ok round ∧
      ScreenedAs (sourceIds host observations) (sourceScreening host policy now observations)
        (sourceWeight host observations) round := by
  simp only [screenRound, collect_groupWeight h, Except.map]
  refine ⟨_, rfl, screenedIds_perm .invalid, screenedIds_perm .stale, ?_, ?_⟩
  · have hperm := (groups_perm host observations).filterMap
      fun group => (screen policy now group.2).fresh?
    rw [filterMap_map] at hperm
    exact hperm
  · have hperm := (groups_perm host observations).map
      fun group => ((group.2.filterMap entryWeight?).max?).getD 0
    rw [map_map] at hperm
    exact hperm.sum_eq

theorem screen_eq_of_perm {copies' : List ObservationEntry} (h : copies.Perm copies') :
    screen policy now copies = screen policy now copies' := by
  rcases copies with _ | ⟨entry, _ | ⟨other, rest⟩⟩
  · rw [h.nil_eq]
  · rw [singleton_perm.1 h]
  · -- More than one copy on both sides.
    rcases copies' with _ | ⟨entry', _ | ⟨other', rest'⟩⟩
    · exact absurd h.length_eq (by simp)
    · exact absurd h.length_eq (by simp)
    · cases entry <;> cases entry' <;> rfl

theorem sourceIds_perm (h : observations.Perm observations') :
    (sourceIds host observations).Perm (sourceIds host observations') :=
  (h.map _).dedup

theorem sourceScreening_eq_of_perm (h : observations.Perm observations') :
    sourceScreening host policy now observations =
      sourceScreening host policy now observations' := by
  funext id
  exact screen_eq_of_perm (groupAt_perm h id)

theorem sourceWeight_eq_of_perm (h : observations.Perm observations') :
    sourceWeight host observations = sourceWeight host observations' := by
  funext id
  simp only [sourceWeight, max?_eq_of_perm ((groupAt_perm h id).filterMap entryWeight?)]

/-- A source screened as fresh is filed under the id of its report. -/
theorem sourceId_of_sourceScreening {id : String}
    (h : (sourceScreening host policy now observations id).fresh? = some r) :
    r.sourceId = id ∧ r ∈ observations.filterMap (reportOf policy now) := by
  rw [sourceScreening, fresh?_screen, Option.bind_eq_some_iff] at h
  obtain ⟨entry, honly, hreport⟩ := h
  obtain ⟨⟨hmem, -⟩, hid⟩ := onlyMember_groupAt.1 honly
  rw [entryId_of_reportOf hreport] at hid
  exact ⟨hid, mem_filterMap.2 ⟨entry, hmem, hreport⟩⟩

/-! ## The order of a round -/

variable {ids : List String} {weight : String → ℚ} {agreeing outliers : List Report}
  {sha : String → String} {p : ConsensusPolicy} {valid : ValidPolicy}

/-- Two rounds that differ in the order of their sources. -/
structure Round.Reordered (round round' : Round) : Prop where
  invalid : round.invalid.Perm round'.invalid
  stale : round.stale.Perm round'.stale
  fresh : round.fresh.Perm round'.fresh
  totalWeight : round.totalWeight = round'.totalWeight

variable {round' : Round}

theorem ScreenedAs.reordered {ids' : List String} {screening : String → Screening}
    (hids : ids.Perm ids') (h : ScreenedAs ids screening weight round)
    (h' : ScreenedAs ids' screening weight round') : round.Reordered round' where
  invalid := h.invalid.trans ((hids.filter _).trans h'.invalid.symm)
  stale := h.stale.trans ((hids.filter _).trans h'.stale.symm)
  fresh := h.fresh.trans ((hids.filterMap _).trans h'.fresh.symm)
  totalWeight := by rw [h.totalWeight, h'.totalWeight, (hids.map weight).sum_eq]

theorem median_eq_of_perm {values values' : List ℚ} (h : values.Perm values') :
    median values = median values' := by
  simp only [median, sortBy_eq_of_perm_lawful h]

variable {agreeing' : List Report}

theorem statusOfRound_eq_of_perm (h : agreeing.Perm agreeing') (agreeingWeight totalWeight : ℚ) :
    statusOfRound valid agreeing agreeingWeight totalWeight =
      statusOfRound valid agreeing' agreeingWeight totalWeight := by
  simp only [statusOfRound, h.length_eq]

theorem nil_iff_of_perm {α : Type} {xs ys : List α} (h : xs.Perm ys) : xs = [] ↔ ys = [] := by
  rw [← length_eq_zero_iff, ← length_eq_zero_iff, h.length_eq]

theorem trustTierOf_eq_of_perm (h : round.Reordered round') {outliers' : List Report}
    (hagr : agreeing.Perm agreeing') (houtl : outliers.Perm outliers') :
    trustTierOf round agreeing outliers = trustTierOf round' agreeing' outliers' := by
  simp only [trustTierOf, hagr.length_eq, nil_iff_of_perm houtl,
    nil_iff_of_perm h.stale, nil_iff_of_perm h.invalid]

/-- The decision on a round does not depend on the order of its sources. -/
theorem decideRound_eq_of_perm (hobss : observations.Perm observations')
    (h : round.Reordered round') :
    decideRound host sha observations p valid now round =
      decideRound host sha observations' p valid now round' := by
  have hid : ∀ status value, computeDecisionId host sha observations p status value now =
      computeDecisionId host sha observations' p status value now := by
    simp only [computeDecisionId, sortBy_eq_of_perm_lawful (hobss.map (decisionRow host)),
      implies_true]
  simp only [decideRound, nil_iff_of_perm h.fresh, sortBy_eq_of_perm_lawful h.invalid,
    sortBy_eq_of_perm_lawful h.stale, h.totalWeight, median_eq_of_perm (h.fresh.map (·.value)), hid]
  split
  · rfl
  cases median (round'.fresh.map (·.value)) with
  | error => rfl
  | ok center =>
    have hagr := h.fresh.filter fun r => !isAnomalous r.value center valid
    have houtl := h.fresh.filter fun r => isAnomalous r.value center valid
    simp only [exceptOk_bind, statusOfRound_eq_of_perm hagr,
      (hagr.map (·.weight)).sum_eq, median_eq_of_perm (hagr.map (·.value)),
      trustTierOf_eq_of_perm h hagr houtl,
      sortBy_eq_of_perm_lawful (hagr.map (·.sourceId)),
      sortBy_eq_of_perm_lawful (houtl.map (·.sourceId)),
      min?_eq_of_perm (hagr.map (·.observedAt))]

/-! ## What the decision says about the round -/

/-- The decision on a round: which reports agree, and what follows from it. -/
structure DecidedOn (valid : ValidPolicy) (round : Round) (agreeing outliers : List Report)
    (d : ConsensusDecision) : Prop where
  split : (agreeing ++ outliers).Perm round.fresh
  agreeingSources : d.agreeingSources = sortBy compareUnits (agreeing.map (·.sourceId))
  outlierSources : d.outlierSources = sortBy compareUnits (outliers.map (·.sourceId))
  staleSources : d.staleSources = sortBy compareUnits round.stale
  invalidSources : d.invalidSources = sortBy compareUnits round.invalid
  agreeingWeight : d.agreeingWeight = (agreeing.map (·.weight)).sum
  status : d.status = .agreed ↔ agreeing ≠ [] ∧ valid.minAgreeingSources ≤ agreeing.length ∧
    meetsQuorum d.agreeingWeight d.totalWeight valid.quorumRatio = true
  value : d.status = .agreed → ∃ v, d.value = some v ∧ IsMedian (agreeing.map (·.value)) v
  trustTier : d.status = .agreed → d.trustTier = trustTierOf round agreeing outliers

variable {agreeingWeight totalWeight : ℚ}

theorem statusOfRound_agreed :
    statusOfRound valid agreeing agreeingWeight totalWeight = .agreed ↔
      agreeing ≠ [] ∧ valid.minAgreeingSources ≤ agreeing.length ∧
        meetsQuorum agreeingWeight totalWeight valid.quorumRatio = true := by
  constructor
  · intro h
    refine ⟨agreeing_ne_nil h, ?_⟩
    simp only [statusOfRound] at h
    split at h
    · cases h
    split at h
    · cases h
    · rename_i hcnt hquorum
      exact ⟨not_lt.1 hcnt, by simpa using hquorum⟩
  · rintro ⟨-, hcnt, hquorum⟩
    simp [statusOfRound, not_lt.2 hcnt, hquorum]

theorem decideRound_decidedOn (round : Round) :
    ∃ d agreeing outliers, decideRound host sha observations p valid now round = .ok d ∧
      DecidedOn valid round agreeing outliers d := by
  simp only [decideRound]
  split
  · rename_i hfresh
    refine ⟨_, [], [], rfl, ?_, rfl, rfl, rfl, rfl, rfl, by simp, by simp, by simp⟩
    rw [hfresh]
    exact .refl _
  · rename_i hfresh
    obtain ⟨center, hctr⟩ := median_ok hfresh
    simp only [hctr, exceptOk_bind]
    have hsplit := filter_append_perm (fun r => !isAnomalous r.value center valid) round.fresh
    simp only [Bool.not_not] at hsplit
    split
    · rename_i hagreed
      obtain ⟨v, hv⟩ := median_ok (agreeing_ne_nil hagreed)
      rw [hv]
      exact ⟨_, _, _, rfl, hsplit, rfl, rfl, rfl, rfl, rfl, statusOfRound_agreed,
        fun _ => ⟨v, rfl, isMedian_of_median hv⟩, fun _ => rfl⟩
    · rename_i hoth
      exact ⟨_, _, _, rfl, hsplit, rfl, rfl, rfl, rfl, rfl, statusOfRound_agreed,
        fun h => absurd h hoth, fun h => absurd h hoth⟩

/-- The fresh reports of a round are filed under distinct ids, which are those of the sources
screened as fresh. -/
theorem ScreenedAs.fresh_ids
    (h : ScreenedAs ids (sourceScreening host valid now observations) weight round) :
    (round.fresh.map (·.sourceId)).Perm
      (ids.filter fun id => (sourceScreening host valid now observations id).fresh?.isSome) := by
  refine (h.fresh.map _).trans (.of_eq ?_)
  rw [map_filterMap, ← filterMap_eq_filter]
  refine filterMap_congr ?_
  intro id _
  cases hfresh : (sourceScreening host valid now observations id).fresh? with
  | none => simp [Option.guard, hfresh]
  | some => simp [Option.guard, hfresh, (sourceId_of_sourceScreening hfresh).1]

/-- Every source is screened as fresh, stale or invalid. -/
theorem screenings_perm (screening : String → Screening) (ids : List String) :
    ((ids.filter fun id => (screening id).fresh?.isSome) ++
      (ids.filter fun id => screening id = .stale) ++
      ids.filter fun id => screening id = .invalid).Perm ids := by
  have hfresh := filter_append_perm (fun id => (screening id).fresh?.isSome) ids
  have hrest := filter_append_perm (fun id => screening id = .stale)
    (ids.filter fun id => !(screening id).fresh?.isSome)
  have hstale : (ids.filter fun id => !(screening id).fresh?.isSome).filter
      (fun id => screening id = .stale) = ids.filter fun id => screening id = .stale := by
    rw [filter_filter]
    refine filter_congr ?_
    intro id _
    cases screening id <;> simp [Screening.fresh?]
  have hinvalid : (ids.filter fun id => !(screening id).fresh?.isSome).filter
      (fun id => !decide (screening id = .stale)) =
        ids.filter fun id => screening id = .invalid := by
    rw [filter_filter]
    refine filter_congr ?_
    intro id _
    cases screening id <;> simp [Screening.fresh?]
  rw [hstale, hinvalid] at hrest
  rw [append_assoc]
  exact (hrest.append_left _).trans hfresh

/-- The four lists of a decision hold the ids of the round, each once. -/
theorem DecidedOn.lists_perm {d : ConsensusDecision}
    (hd : DecidedOn valid round agreeing outliers d)
    (h : ScreenedAs ids (sourceScreening host valid now observations) weight round) :
    (d.agreeingSources ++ d.outlierSources ++ d.staleSources ++ d.invalidSources).Perm ids := by
  have hlists : (d.agreeingSources ++ d.outlierSources ++ d.staleSources ++
      d.invalidSources).Perm (round.fresh.map (·.sourceId) ++ round.stale ++ round.invalid) := by
    rw [hd.agreeingSources, hd.outlierSources, hd.staleSources, hd.invalidSources]
    have hfresh : (agreeing.map (·.sourceId) ++ outliers.map (·.sourceId)).Perm
        (round.fresh.map (·.sourceId)) := by
      rw [← map_append]
      exact hd.split.map (·.sourceId)
    exact (((sortBy_perm.append sortBy_perm).trans
      hfresh).append sortBy_perm).append sortBy_perm
  exact hlists.trans (((h.fresh_ids.append h.stale).append h.invalid).trans (screenings_perm _ ids))

theorem meetsQuorum_iff {quorumRatio : ℚ} (h : 0 ≤ agreeingWeight) :
    meetsQuorum agreeingWeight totalWeight quorumRatio = true ↔
      0 < totalWeight ∧ quorumRatio ≤ agreeingWeight / totalWeight := by
  simp [meetsQuorum, h]

/-! ## Coherence -/

/-- The ids are sorted by code units, without repetition. -/
def StrictlySorted (ids : List String) : Prop := ids.Pairwise fun a b => compareUnits a b = .lt

/-- The values of the sources in a list. -/
def valuesOf (policy : ValidPolicy) (now : ℚ) (observations : List ObservationEntry)
    (ids : List String) : List ℚ :=
  ((observations.filterMap (reportOf policy now)).filter fun r => r.sourceId ∈ ids).map (·.value)

/-- Every source id is in one of four sorted lists, and status, value and trust tier are what the
lists say. -/
structure CoherentDecision (host : Host) (policy : ValidPolicy) (now : ℚ)
    (observations : List ObservationEntry) (d : ConsensusDecision) : Prop where
  partition : (d.agreeingSources ++ d.outlierSources ++ d.staleSources ++ d.invalidSources).Perm
    (sourceIds host observations)
  sorted : StrictlySorted d.agreeingSources ∧ StrictlySorted d.outlierSources ∧
    StrictlySorted d.staleSources ∧ StrictlySorted d.invalidSources
  status : d.status = .agreed ↔
    d.agreeingSources ≠ [] ∧ policy.minAgreeingSources ≤ d.agreeingSources.length ∧
      policy.quorumRatio ≤ d.agreeingWeight / d.totalWeight ∧ 0 < d.totalWeight
  value : d.status = .agreed → ∃ v lo hi, d.value = some v ∧
    (valuesOf policy now observations d.agreeingSources).min? = some lo ∧
    (valuesOf policy now observations d.agreeingSources).max? = some hi ∧ lo ≤ v ∧ v ≤ hi
  singleSource : d.status = .agreed →
    (d.trustTier = .singleSource ↔ d.agreeingSources.length = 1)
  unanimous : d.status = .agreed →
    (d.trustTier = .unanimous ↔ 3 ≤ d.agreeingSources.length ∧ d.outlierSources = [] ∧
      d.staleSources = [] ∧ d.invalidSources = [])
  corroborated : d.status = .agreed →
    (d.trustTier = .corroborated ↔ d.trustTier ≠ .singleSource ∧ d.trustTier ≠ .unanimous)

variable {d : ConsensusDecision}

theorem ScreenedAs.report_of_fresh
    (h : ScreenedAs ids (sourceScreening host policy now observations) weight round)
    (hr : r ∈ round.fresh) : r ∈ observations.filterMap (reportOf policy now) := by
  obtain ⟨id, -, hfresh⟩ := mem_filterMap.1 (h.fresh.mem_iff.1 hr)
  exact (sourceId_of_sourceScreening hfresh).2

namespace DecidedOn

variable (hd : DecidedOn policy round agreeing outliers d)

include hd

theorem agreeingWeight_nonneg
    (h : ScreenedAs ids (sourceScreening host policy now observations) weight round) :
    0 ≤ d.agreeingWeight := by
  rw [hd.agreeingWeight]
  apply sum_nonneg
  intro w hw
  obtain ⟨r, hr, rfl⟩ := mem_map.1 hw
  have hfresh := h.report_of_fresh (hd.split.mem_iff.1 (mem_append_left _ hr))
  obtain ⟨entry, -, hreport⟩ := mem_filterMap.1 hfresh
  exact weight_nonneg_of_reportOf hreport

theorem sorted
    (hids : (d.agreeingSources ++ d.outlierSources ++ d.staleSources ++ d.invalidSources).Nodup) :
    StrictlySorted d.agreeingSources ∧ StrictlySorted d.outlierSources ∧
      StrictlySorted d.staleSources ∧ StrictlySorted d.invalidSources := by
  have hinvalid := nodup_append.1 hids
  have hstale := nodup_append.1 hinvalid.1
  have hfresh := nodup_append.1 hstale.1
  have hsort : ∀ {xs : List String}, (sortBy compareUnits xs).Nodup →
      StrictlySorted (sortBy compareUnits xs) :=
    fun hnd => sortBy_pairwise_lt (sortBy_perm.nodup_iff.1 hnd)
  rw [hd.agreeingSources, hd.outlierSources, hd.staleSources, hd.invalidSources] at *
  exact ⟨hsort hfresh.1, hsort hfresh.2.1, hsort hstale.2.1, hsort hinvalid.2.1⟩

/-- The value lies in the range of the agreeing sources. -/
theorem value_mem (h : ScreenedAs ids (sourceScreening host policy now observations) weight round)
    (hagreed : d.status = .agreed) : ∃ v lo hi, d.value = some v ∧
      (valuesOf policy now observations d.agreeingSources).min? = some lo ∧
      (valuesOf policy now observations d.agreeingSources).max? = some hi ∧ lo ≤ v ∧ v ≤ hi := by
  have hmem : ∀ x ∈ agreeing.map (·.value),
      x ∈ valuesOf policy now observations d.agreeingSources := by
    intro x hx
    obtain ⟨r, hr, rfl⟩ := mem_map.1 hx
    have hfresh := h.report_of_fresh (hd.split.mem_iff.1 (mem_append_left _ hr))
    refine mem_map_of_mem (mem_filter.2 ⟨hfresh, decide_eq_true ?_⟩)
    rw [hd.agreeingSources, mem_sortBy]
    exact mem_map_of_mem hr
  obtain ⟨v, hv, hmed⟩ := hd.value hagreed
  obtain ⟨x, hx⟩ := exists_mem_of_ne_nil _ hmed.nonempty
  obtain ⟨lo, hlo⟩ := Option.isSome_iff_exists.1 (isSome_min?_of_mem (hmem x hx))
  obtain ⟨hi, hhi⟩ := Option.isSome_iff_exists.1 (isSome_max?_of_mem (hmem x hx))
  have hbnd : lo ≤ v ∧ v ≤ hi := by
    apply hmed.mem_Icc
    intro y hy
    exact ⟨(min?_eq_some_iff.1 hlo).2 y (hmem y hy), (max?_eq_some_iff.1 hhi).2 y (hmem y hy)⟩
  exact ⟨v, lo, hi, hv, hlo, hhi, hbnd⟩

theorem coherent (h : ScreenedAs (sourceIds host observations)
      (sourceScreening host policy now observations) weight round) :
    CoherentDecision host policy now observations d := by
  have hpart := hd.lists_perm h
  have hcnt : d.agreeingSources.length = agreeing.length := by
    rw [hd.agreeingSources, sortBy_length, length_map]
  have hagr : d.agreeingSources ≠ [] ↔ agreeing ≠ [] := by
    rw [hd.agreeingSources, Ne, sortBy_eq_nil, map_eq_nil_iff]
  have hemp : d.outlierSources = [] ∧ d.staleSources = [] ∧ d.invalidSources = [] ↔
      outliers = [] ∧ round.stale = [] ∧ round.invalid = [] := by
    rw [hd.outlierSources, hd.staleSources, hd.invalidSources, sortBy_eq_nil, sortBy_eq_nil,
      sortBy_eq_nil, map_eq_nil_iff]
  refine {
    partition := hpart
    sorted := hd.sorted (hpart.nodup_iff.2 (nodup_dedup _))
    status := ?_
    value := hd.value_mem h
    singleSource := ?_
    unanimous := ?_
    corroborated := ?_ }
  · rw [hd.status, meetsQuorum_iff (hd.agreeingWeight_nonneg h), hagr, hcnt]
    tauto
  · intro hagreed
    rw [hd.trustTier hagreed, hcnt, trustTierOf]
    split
    · simp_all
    · split <;> simp_all
  · intro hagreed
    rw [hd.trustTier hagreed, hcnt, hemp, trustTierOf]
    split
    · simp_all
    · split <;> simp_all
  · intro hagreed
    rw [hd.trustTier hagreed, trustTierOf]
    split
    · simp
    · split <;> simp

end DecidedOn

/-- The evaluation is coherent exactly when no entry is missing and every field can be printed: it
returns one decision for every order of the observations, and the decision is coherent. -/
theorem coherent_iff_all_readable (host : Host) (sha : String → String) (p : ConsensusPolicy)
    (policy : ValidPolicy) (hpolicy : validateConsensusPolicy p = .ok policy) (now : ℚ)
    (observations : List ObservationEntry) :
    (∃ d, (∀ observations', observations'.Perm observations →
        evaluateConsensus host sha observations' p (.finite now) = .ok d) ∧
      CoherentDecision host policy now observations d) ↔
    ∀ entry ∈ observations, entry.isReadable = true := by
  simp only [evaluateConsensus_eq_ok hpolicy]
  constructor
  · rintro ⟨d, hd, -⟩
    exact (hd observations (.refl _)).1
  · intro hreadable
    obtain ⟨round, hround, hscreened⟩ := screenRound_screenedAs (isObject_of_isReadable hreadable)
    obtain ⟨d, agreeing, outliers, hd, hdecided⟩ := decideRound_decidedOn round
    refine ⟨d, ?_, hdecided.coherent hscreened⟩
    intro observations' hperm
    have hreadable' : ∀ entry ∈ observations', entry.isReadable = true :=
      fun entry hentry => hreadable entry (hperm.mem_iff.1 hentry)
    obtain ⟨round', hround', hscreened'⟩ :=
      screenRound_screenedAs (isObject_of_isReadable hreadable')
    rw [sourceScreening_eq_of_perm hperm, sourceWeight_eq_of_perm hperm] at hscreened'
    have hreordered := hscreened'.reordered (sourceIds_perm hperm) hscreened
    exact ⟨hreadable', round', hround', (decideRound_eq_of_perm hperm hreordered).trans hd⟩

/-- The round of liars, repeats and garbage has one coherent decision. -/
theorem coherent_mixedRound :
    ∃ d, (∀ observations', observations'.Perm mixedRound →
        evaluateConsensus plainHost id observations' defaultConsensusPolicy
          (.finite 1000000) = .ok d) ∧
      CoherentDecision plainHost defaultValidPolicy 1000000 mixedRound d :=
  (coherent_iff_all_readable plainHost id defaultConsensusPolicy defaultValidPolicy
    (by decide +kernel) 1000000 mixedRound).2 (by decide +kernel)

/-- A list with a missing entry is not classified: the evaluation throws. So it does for a source
id that cannot be printed. -/
theorem missing_entry_throws :
    validateConsensusPolicy defaultConsensusPolicy = .ok defaultValidPolicy ∧
    evaluateConsensus plainHost id [.null] defaultConsensusPolicy (.finite 0) =
      .error (.typeError "Cannot read properties of null (reading 'weight')") ∧
    evaluateConsensus plainHost id [.object ⟨.unprintable, .null, .null, .null⟩]
        defaultConsensusPolicy (.finite 0) =
      .error (.typeError "Cannot convert object to primitive value") ∧
    ¬∃ d, (∀ observations', observations'.Perm [.null] →
        evaluateConsensus plainHost id observations' defaultConsensusPolicy (.finite 0) = .ok d) ∧
      CoherentDecision plainHost defaultValidPolicy 0 [.null] d := by
  have hthrows : evaluateConsensus plainHost id [.null] defaultConsensusPolicy (.finite 0) =
      .error (.typeError "Cannot read properties of null (reading 'weight')") := by
    decide +kernel
  refine ⟨by decide +kernel, hthrows, by decide +kernel, ?_⟩
  rintro ⟨d, hd, -⟩
  have hok := hd [.null] (.refl _)
  rw [hthrows] at hok
  cases hok

end Refract.Consensus
