import Refract.Consensus.MirrorPenalties

/-!
# The engine does not depend on the order of its input

`computeConsensus` sorts the sources and the penalties and picks the latest reading of each source,
so the order in which they come should not matter. It does not, as long as `localeCompare` tells the
ids of the sources apart; two ids that it does not tell apart keep the order they came in
(`orderly_iff_tells_apart`). An input that makes the engine throw, for want of a contributor, does
so in every order.

The other guarantees need no such condition: no two independent sources are linked by a penalty,
some eligible source is always independent, and a decision rests on enough independent sources and
enough weight.
-/

namespace Refract.Consensus

open Lib List OrdMap

/-! ## The latest reading of a source -/

variable {windowStart atTime : ℚ} {readings : List ReadingState} {id : String}

/-- The reading is no older than the window and not from the future. -/
def InWindow (windowStart atTime : ℚ) (r : ReadingState) : Prop :=
  ¬(atTime < r.observedAt ∨ r.observedAt < windowStart)

/-- `r` replaces `prev`. -/
def Newer (r prev : ReadingState) : Prop :=
  prev.observedAt < r.observedAt ∨ r.observedAt = prev.observedAt ∧ prev.seq < r.seq

theorem Newer.irrefl (r : ReadingState) : ¬Newer r r := by
  rintro (h | ⟨-, h⟩) <;> exact lt_irrefl _ h

theorem Newer.of_not_newer {r r' r'' : ReadingState} (h : Newer r r') (h' : ¬Newer r'' r') :
    ¬Newer r'' r := by
  simp only [Newer, not_or, not_and, not_lt] at h h' ⊢
  rcases h with h | ⟨h, hseq⟩
  · exact ⟨h'.1.trans h.le, fun heq => absurd (heq ▸ h) (not_lt.2 h'.1)⟩
  · exact ⟨h ▸ h'.1, fun heq => (h'.2 (heq.trans h)).trans hseq.le⟩

/-- What the map of latest readings holds for a source. -/
def IsLatest (windowStart atTime : ℚ) (readings : List ReadingState) (id : String) :
    Option ReadingState → Prop
  | none => ∀ r ∈ readings, r.sourceId = id → ¬InWindow windowStart atTime r
  | some r => r ∈ readings ∧ r.sourceId = id ∧ InWindow windowStart atTime r ∧
      ∀ r' ∈ readings, r'.sourceId = id → InWindow windowStart atTime r' → ¬Newer r' r

variable {found : Option ReadingState} {e : ReadingState}

/-- A reading that does not replace the latest one. -/
theorem IsLatest.skip (h : IsLatest windowStart atTime readings id found)
    (he : e.sourceId = id → InWindow windowStart atTime e → ∃ r, found = some r ∧ ¬Newer e r) :
    IsLatest windowStart atTime (readings ++ [e]) id found := by
  cases found with
  | none =>
    intro r hr hid hwin
    rcases mem_snoc.1 hr with hr | rfl
    · exact h r hr hid hwin
    obtain ⟨r', hr', -⟩ := he hid hwin
    cases hr'
  | some =>
    obtain ⟨hmem, hid, hwin, hlatest⟩ := h
    refine ⟨mem_append_left _ hmem, hid, hwin, ?_⟩
    intro r' hr' hid' hwin'
    rcases mem_snoc.1 hr' with hr' | rfl
    · exact hlatest r' hr' hid' hwin'
    obtain ⟨r₀, hr₀, hnot⟩ := he hid' hwin'
    cases hr₀
    exact hnot

/-- A reading that becomes the latest one. -/
theorem IsLatest.replace (h : IsLatest windowStart atTime readings id found) (hid : e.sourceId = id)
    (hwin : InWindow windowStart atTime e) (hnewer : ∀ r, found = some r → Newer e r) :
    IsLatest windowStart atTime (readings ++ [e]) id (some e) := by
  refine ⟨mem_append_right _ (mem_singleton_self e), hid, hwin, ?_⟩
  intro r' hr' hid' hwin'
  rcases mem_snoc.1 hr' with hr' | rfl
  · cases found with
    | none => exact absurd hwin' (h r' hr' hid')
    | some r => exact (hnewer r rfl).of_not_newer (h.2.2.2 r' hr' hid' hwin')
  · exact Newer.irrefl r'

theorem isLatest_latestBySource (windowStart atTime : ℚ) (readings : List ReadingState)
    (id : String) : IsLatest windowStart atTime readings id
      ((latestBySource windowStart atTime readings).get? id) := by
  -- The loop takes the readings in order, so the induction takes the last one off.
  induction readings using List.reverseRecOn with
  | nil =>
    intro r hr
    cases hr
  | append_singleton readings e ih =>
    have hstep : latestBySource windowStart atTime (readings ++ [e]) =
        latestStep windowStart atTime (latestBySource windowStart atTime readings) e := by
      rw [latestBySource, foldl_append]
      rfl
    rw [hstep]
    simp only [latestStep]
    split
    · rename_i houtside
      exact ih.skip fun _ hwin => absurd houtside hwin
    rename_i hwin
    by_cases hid : e.sourceId = id
    · subst hid
      split
      · rename_i hnone
        rw [get?_set_self]
        exact ih.replace rfl hwin fun r hr => by rw [hnone] at hr; cases hr
      rename_i prev hprev
      split
      · rename_i hnewer
        rw [get?_set_self]
        refine ih.replace rfl hwin fun r hr => ?_
        rw [hprev] at hr
        cases hr
        exact hnewer
      · rename_i hnot
        exact ih.skip fun _ _ => ⟨prev, hprev, hnot⟩
    · have hskip := ih.skip (e := e) fun h => absurd h hid
      split
      · rwa [get?_set_of_ne (Ne.symm hid)]
      split
      · rwa [get?_set_of_ne (Ne.symm hid)]
      · exact hskip

/-- No source has two readings with the same time and sequence number. -/
def DistinctReadings (readings : List ReadingState) : Prop :=
  ∀ r ∈ readings, ∀ r' ∈ readings, r.sourceId = r'.sourceId → r.observedAt = r'.observedAt →
    r.seq = r'.seq → r = r'

instance (readings : List ReadingState) : Decidable (DistinctReadings readings) :=
  inferInstanceAs (Decidable (∀ r ∈ readings, ∀ r' ∈ readings, _))

variable {readings' : List ReadingState}

theorem IsLatest.of_perm (h : IsLatest windowStart atTime readings' id found)
    (hperm : readings'.Perm readings) : IsLatest windowStart atTime readings id found := by
  cases found with
  | none => exact fun r hr => h r (hperm.mem_iff.2 hr)
  | some =>
    exact ⟨hperm.mem_iff.1 h.1, h.2.1, h.2.2.1, fun r' hr' => h.2.2.2 r' (hperm.mem_iff.2 hr')⟩

theorem IsLatest.unique {found' : Option ReadingState} (hdist : DistinctReadings readings)
    (h : IsLatest windowStart atTime readings id found)
    (h' : IsLatest windowStart atTime readings id found') : found = found' := by
  cases found with
  | none =>
    cases found' with
    | none => rfl
    | some r' => exact absurd h'.2.2.1 (h r' h'.1 h'.2.1)
  | some r =>
    cases found' with
    | none => exact absurd h.2.2.1 (h' r h.1 h.2.1)
    | some r' =>
      have hnot := h.2.2.2 r' h'.1 h'.2.1 h'.2.2.1
      have hnot' := h'.2.2.2 r h.1 h.2.1 h.2.2.1
      simp only [Newer, not_or, not_and, not_lt] at hnot hnot'
      have hat := le_antisymm hnot.1 hnot'.1
      have hseq := le_antisymm (hnot.2 hat) (hnot'.2 hat.symm)
      rw [hdist r h.1 r' h'.1 (h.2.1.trans h'.2.1.symm) hat.symm hseq.symm]

theorem latestBySource_eq_of_perm (hdist : DistinctReadings readings)
    (hperm : readings'.Perm readings) (id : String) :
    (latestBySource windowStart atTime readings').get? id =
      (latestBySource windowStart atTime readings).get? id :=
  ((isLatest_latestBySource windowStart atTime readings' id).of_perm hperm).unique hdist
    (isLatest_latestBySource windowStart atTime readings id)

/-! ## Contributors -/

variable {latest : OrdMap String ReadingState} {s : SourceState}
  {stamped : Stamped QuorumPolicyEvent} {host : Host} {input : ConsensusInput}
  {policy : QuorumPolicyEvent}

/-- The latest readings in the window of a policy. -/
def latestUnder (input : ConsensusInput) (policy : QuorumPolicyEvent) :
    OrdMap String ReadingState :=
  latestBySource (input.atTime - policy.maxReadingAgeMs) input.atTime input.readings

/-- The entries of the sources before penalties. -/
def entriesUnder (host : Host) (input : ConsensusInput) (policy : QuorumPolicyEvent) :
    List SourceEligibility :=
  (sortBy (fun a b => host.localeCompare a.sourceId b.sourceId) input.sources).map
    (eligibilityOf (latestUnder input policy))

theorem eligibilityUnder_eq : eligibilityUnder host input policy =
    applyPenalties host (entriesUnder host input policy) input.penalties := rfl

/-- The contribution of an entry that has a reading. -/
def contribution (latest : OrdMap String ReadingState) (e : SourceEligibility) :
    ContributingReading where
  readingId := e.readingId.getD ""
  sourceId := e.sourceId
  value := ((latest.get? e.sourceId).map (·.value)).getD 0
  effectiveWeight := e.effectiveWeight
  independent := some e.independent

theorem sourceId_eligibilityOf (latest : OrdMap String ReadingState) (s : SourceState) :
    (eligibilityOf latest s).sourceId = s.sourceId := by
  simp only [eligibilityOf]
  repeat' split
  all_goals rfl

theorem independent_eligibilityOf (latest : OrdMap String ReadingState) (s : SourceState) :
    (eligibilityOf latest s).independent = true := by
  simp only [eligibilityOf]
  repeat' split
  all_goals rfl

/-- An eligible source has a reading. -/
theorem reading_of_eligible (h : (eligibilityOf latest s).eligible = true) :
    ∃ r, latest.get? s.sourceId = some r ∧
      (eligibilityOf latest s).readingId = some r.readingId := by
  revert h
  simp only [eligibilityOf]
  repeat' split
  case h_2.isFalse r hr hsig => exact fun _ => ⟨r, hr, rfl⟩
  all_goals exact Bool.noConfusion

theorem ids_entriesUnder : (entriesUnder host input policy).map (·.sourceId) =
    (sortBy (fun a b => host.localeCompare a.sourceId b.sourceId) input.sources).map
      (·.sourceId) := by
  rw [entriesUnder, map_map]
  refine map_congr_left ?_
  intro s _
  exact sourceId_eligibilityOf _ s

theorem ids_eligibilityUnder : (eligibilityUnder host input policy).map (·.sourceId) =
    (entriesUnder host input policy).map (·.sourceId) :=
  map_applyPenalties (fun _ _ _ _ => rfl)

theorem independent_entriesUnder : ∀ e ∈ entriesUnder host input policy, e.independent = true := by
  intro e he
  obtain ⟨s, -, rfl⟩ := mem_map.1 he
  exact independent_eligibilityOf _ s

theorem nodup_entriesUnder (h : (input.sources.map (·.sourceId)).Nodup) :
    ((entriesUnder host input policy).map (·.sourceId)).Nodup := by
  rw [ids_entriesUnder]
  exact (sortBy_perm.map _).nodup_iff.2 h

/-- No exception is thrown for an eligible entry. -/
theorem contributionOf_eq {e : SourceEligibility} (he : e ∈ eligibilityUnder host input policy)
    (helig : e.eligible = true) :
    contributionOf (latestUnder input policy) e =
      .ok (contribution (latestUnder input policy) e) := by
  have hbase : (e.sourceId, e.eligible, e.readingId) ∈
      (entriesUnder host input policy).map fun e => (e.sourceId, e.eligible, e.readingId) := by
    have hmap : (eligibilityUnder host input policy).map
        (fun e => (e.sourceId, e.eligible, e.readingId)) =
        (entriesUnder host input policy).map fun e => (e.sourceId, e.eligible, e.readingId) :=
      map_applyPenalties (fun _ _ _ _ => rfl)
    rw [← hmap]
    exact mem_map_of_mem he
  obtain ⟨e₀, he₀, heq⟩ := mem_map.1 hbase
  obtain ⟨s, -, rfl⟩ := mem_map.1 he₀
  simp only [Prod.mk.injEq] at heq
  obtain ⟨hid, helig', hreading⟩ := heq
  obtain ⟨r, hr, hrid⟩ := reading_of_eligible (helig'.trans helig)
  rw [sourceId_eligibilityOf] at hid
  rw [hid] at hr
  rw [hreading] at hrid
  simp only [contributionOf, contribution, hrid, hr]
  rfl

/-- The contributors of the input. -/
def contributorsUnder (host : Host) (input : ConsensusInput) (policy : QuorumPolicyEvent) :
    List ContributingReading :=
  ((eligibilityUnder host input policy).filter (·.eligible)).map
    (contribution (latestUnder input policy))

theorem computeConsensus_eq (hpol : input.policy = some stamped) :
    computeConsensus host input =
      decideOutcome host input stamped.data (eligibilityUnder host input stamped.data)
        (contributorsUnder host input stamped.data) := by
  have hcoll : collect (((eligibilityUnder host input stamped.data).filter (·.eligible)).map
      (contributionOf (latestUnder input stamped.data))) =
      .ok (contributorsUnder host input stamped.data) := by
    apply collect_map_ok
    intro e he
    obtain ⟨hmem, helig⟩ := mem_filter.1 he
    exact contributionOf_eq hmem helig
  simp only [computeConsensus, hpol]
  exact congrArg (· >>= _) hcoll

/-! ## Penalties in any order -/

variable {p : PairPenalty} {l : List SourceEligibility}

/-- Both sources of a penalty are among the given ids. -/
def KnownPair (ids : List String) (p : PairPenalty) : Bool :=
  decide (p.sourceA ∈ ids ∧ p.sourceB ∈ ids)

theorem applyPenalty_of_unknown (h : ¬KnownPair (l.map (·.sourceId)) p = true) :
    applyPenalty l p = l := by
  simp only [applyPenalty]
  split
  · rename_i a b ha hb
    refine absurd (decide_eq_true ?_) h
    obtain ⟨haMem, haId⟩ := entryById_eq_some ha
    obtain ⟨hbMem, hbId⟩ := entryById_eq_some hb
    exact ⟨mem_map.2 ⟨a, haMem, haId⟩, mem_map.2 ⟨b, hbMem, hbId⟩⟩
  · rfl

/-- Penalties that name an unknown source have no effect. -/
theorem foldl_applyPenalty_filter (ordered : List PairPenalty) :
    ordered.foldl applyPenalty l =
      (ordered.filter (KnownPair (l.map (·.sourceId)))).foldl applyPenalty l := by
  induction ordered generalizing l with
  | nil => rfl
  | cons _ _ ih =>
    rw [foldl_cons, filter_cons]
    split
    · rw [foldl_cons, ih, sourceId_applyPenalty]
    rename_i hunknown
    rw [applyPenalty_of_unknown hunknown]
    exact ih

/-- All penalties scale weights by the same factor. -/
def CommonFactor (penalties : List PairPenalty) : Prop :=
  ∀ p ∈ penalties, ∀ q ∈ penalties, p.factor = q.factor

/-- `localeCompare` tells the given ids apart. -/
def TellsApart (host : Host) (ids : List String) : Prop :=
  ∀ a ∈ ids, ∀ b ∈ ids, host.localeCompare a b = .eq → a = b

theorem applyPenalties_eq_of_perm [Std.TransCmp host.localeCompare]
    {penalties penalties' : List PairPenalty} (hapart : TellsApart host (l.map (·.sourceId)))
    (hfactor : CommonFactor penalties) (hperm : penalties.Perm penalties') :
    applyPenalties host l penalties' = applyPenalties host l penalties := by
  rw [applyPenalties, applyPenalties, foldl_applyPenalty_filter (sortBy _ penalties),
    foldl_applyPenalty_filter (sortBy _ penalties')]
  -- The pass reads known pairs only, and those the comparator tells apart.
  refine congrArg (foldl applyPenalty l) (filter_sortBy_eq_of_perm hperm ?_).symm
  intro p hp q hq hknownP hknownQ hcmp
  obtain ⟨hpA, hpB⟩ := of_decide_eq_true hknownP
  obtain ⟨hqA, hqB⟩ := of_decide_eq_true hknownQ
  obtain ⟨hcmpA, hcmpB⟩ := Ordering.then_eq_eq.1 hcmp
  have hsourceA := hapart _ hpA _ hqA hcmpA
  have hsourceB := hapart _ hpB _ hqB hcmpB
  cases p
  cases q
  simp only [PairPenalty.mk.injEq]
  exact ⟨hsourceA, hsourceB, hfactor _ hp _ hq⟩

/-! ## The same input in another order -/

/-- The assumptions on an input: source ids are distinct, no two readings of a source share time and
sequence number, and a penalty joins two different sources. -/
structure DistinctInput (input : ConsensusInput) : Prop where
  sources : (input.sources.map (·.sourceId)).Nodup
  readings : DistinctReadings input.readings
  pairs : ∀ p ∈ input.penalties, p.sourceA ≠ p.sourceB

/-- `input'` is `input` with its sources and readings, and penalties of a common factor, in another
order. -/
structure Reordered (input input' : ConsensusInput) : Prop where
  feedId : input'.feedId = input.feedId
  atTime : input'.atTime = input.atTime
  policy : input'.policy = input.policy
  sources : input'.sources.Perm input.sources
  readings : input'.readings.Perm input.readings
  penalties : input'.penalties = input.penalties ∨
    CommonFactor input.penalties ∧ input'.penalties.Perm input.penalties

variable {input' : ConsensusInput}

theorem latestUnder_reordered (hinput : DistinctInput input) (h : Reordered input input')
    (id : String) : (latestUnder input' policy).get? id = (latestUnder input policy).get? id := by
  rw [latestUnder, latestUnder, h.atTime]
  exact latestBySource_eq_of_perm hinput.readings h.readings id

section

variable (hinput : DistinctInput input) (hapart : TellsApart host (input.sources.map (·.sourceId)))
  (h : Reordered input input')

include hinput hapart h

theorem entriesUnder_reordered [Std.TransCmp host.localeCompare] :
    entriesUnder host input' policy = entriesUnder host input policy := by
  have hsort : sortBy (fun a b => host.localeCompare a.sourceId b.sourceId) input.sources =
      sortBy (fun a b => host.localeCompare a.sourceId b.sourceId) input'.sources := by
    apply sortBy_eq_of_perm h.sources.symm
    intro a ha b hb hcmp
    have hid := hapart _ (mem_map_of_mem ha) _ (mem_map_of_mem hb) hcmp
    exact inj_on_of_nodup_map hinput.sources ha hb hid
  rw [entriesUnder, entriesUnder, ← hsort]
  refine map_congr_left ?_
  intro s _
  simp only [eligibilityOf, latestUnder_reordered hinput h]

theorem eligibilityUnder_reordered [Std.TransCmp host.localeCompare] :
    eligibilityUnder host input' policy = eligibilityUnder host input policy := by
  rw [eligibilityUnder_eq, eligibilityUnder_eq, entriesUnder_reordered hinput hapart h]
  rcases h.penalties with hsame | ⟨hfactor, hperm⟩
  · rw [hsame]
  refine applyPenalties_eq_of_perm ?_ hfactor hperm.symm
  intro a ha b hb
  rw [ids_entriesUnder] at ha hb
  have hperm := (@sortBy_perm _ (fun a b : SourceState =>
    host.localeCompare a.sourceId b.sourceId) input.sources).map (·.sourceId)
  exact hapart a (hperm.mem_iff.1 ha) b (hperm.mem_iff.1 hb)

theorem contributorsUnder_reordered [Std.TransCmp host.localeCompare] :
    contributorsUnder host input' policy = contributorsUnder host input policy := by
  rw [contributorsUnder, contributorsUnder, eligibilityUnder_reordered hinput hapart h]
  refine map_congr_left ?_
  intro e _
  simp only [contribution, latestUnder_reordered hinput h]

end

theorem computeConsensus_reordered [Std.TransCmp host.localeCompare] (hinput : DistinctInput input)
    (hapart : TellsApart host (input.sources.map (·.sourceId))) (hpol : input.policy = some stamped)
    (h : Reordered input input') :
    computeConsensus host input' = computeConsensus host input := by
  rw [computeConsensus_eq hpol, computeConsensus_eq (h.policy.trans hpol),
    eligibilityUnder_reordered hinput hapart h, contributorsUnder_reordered hinput hapart h]
  simp only [decideOutcome, h.feedId, h.atTime]

/-! ## Inputs without contributors -/

/-- The source may contribute: it is in service, has weight, and its latest reading in the window
has no failed signature. -/
def CanContribute (input : ConsensusInput) (policy : QuorumPolicyEvent) (s : SourceState) : Prop :=
  s.status ≠ .retired ∧ s.status ≠ .quarantined ∧ 0 < s.weight ∧
    ∃ r, IsLatest (input.atTime - policy.maxReadingAgeMs) input.atTime input.readings s.sourceId
      (some r) ∧ r.signature ≠ .failed

theorem eligible_iff_canContribute (hread : DistinctReadings input.readings) (s : SourceState) :
    (eligibilityOf (latestUnder input policy) s).eligible = true ↔
      CanContribute input policy s := by
  have hlatest := isLatest_latestBySource (input.atTime - policy.maxReadingAgeMs) input.atTime
    input.readings s.sourceId
  simp only [eligibilityOf, latestUnder, CanContribute]
  by_cases hret : s.status = .retired
  · simp [hret, ineligible]
  by_cases hquar : s.status = .quarantined
  · simp [hquar, ineligible]
  by_cases hwt : s.weight ≤ 0
  · simp [hret, hquar, hwt, not_lt.2 hwt, ineligible]
  rw [if_neg hret, if_neg hquar, if_neg hwt]
  split
  · rename_i hnone
    rw [hnone] at hlatest
    refine ⟨Bool.noConfusion, ?_⟩
    rintro ⟨-, -, -, r, hr, -⟩
    cases hlatest.unique hread hr
  rename_i r hr
  rw [hr] at hlatest
  split
  · rename_i hfailed
    refine ⟨Bool.noConfusion, ?_⟩
    rintro ⟨-, -, -, r', hr', hsig⟩
    cases hlatest.unique hread hr'
    exact absurd hfailed hsig
  · rename_i hsig
    exact ⟨fun _ => ⟨hret, hquar, not_le.1 hwt, r, hlatest, hsig⟩, fun _ => rfl⟩

/-- No source may contribute, and the policy asks for none. -/
structure LacksContributor (input : ConsensusInput) (policy : QuorumPolicyEvent) : Prop where
  sources : ∀ s ∈ input.sources, ¬CanContribute input policy s
  minSources : policy.minSources ≤ 0
  minTotalWeight : policy.minTotalWeight ≤ 0

/-- Penalties leave the sources that may contribute eligible, and no others. -/
theorem exists_eligible_iff (hread : DistinctReadings input.readings) :
    (∃ e ∈ eligibilityUnder host input policy, e.eligible = true) ↔
      ∃ s ∈ input.sources, CanContribute input policy s := by
  have hmap : (eligibilityUnder host input policy).map (·.eligible) =
      (entriesUnder host input policy).map (·.eligible) :=
    map_applyPenalties (fun _ _ _ _ => rfl)
  have hiff : (∃ e ∈ eligibilityUnder host input policy, e.eligible = true) ↔
      ∃ e ∈ entriesUnder host input policy, e.eligible = true := by
    rw [← mem_map, hmap, mem_map]
  rw [hiff, entriesUnder]
  simp only [mem_map, exists_exists_and_eq_and, mem_sortBy, eligible_iff_canContribute hread]

theorem Reordered.lacksContributor (h : Reordered input input')
    (hlacks : LacksContributor input policy) : LacksContributor input' policy := by
  refine ⟨?_, hlacks.minSources, hlacks.minTotalWeight⟩
  rintro s hs ⟨hret, hquar, hwt, r, hr, hsig⟩
  rw [h.atTime] at hr
  exact hlacks.sources s (h.sources.mem_iff.1 hs)
    ⟨hret, hquar, hwt, r, hr.of_perm h.readings, hsig⟩

/-- The engine throws for want of a contributor. -/
theorem computeConsensus_throws (hpol : input.policy = some stamped)
    (hread : DistinctReadings input.readings) (hlacks : LacksContributor input stamped.data) :
    computeConsensus host input = .error (undefinedProperty "value") := by
  have hnone : (eligibilityUnder host input stamped.data).filter (·.eligible) = [] := by
    rw [filter_eq_nil_iff]
    intro e he helig
    obtain ⟨s, hs, hcan⟩ := (exists_eligible_iff hread).1 ⟨e, he, helig⟩
    exact hlacks.sources s hs hcan
  have hcnt : ¬((0 : ℚ) < stamped.data.minSources) := not_lt.2 hlacks.minSources
  have hwt : ¬((0 : ℚ) < stamped.data.minTotalWeight) := not_lt.2 hlacks.minTotalWeight
  rw [computeConsensus_eq hpol, contributorsUnder]
  simp only [decideOutcome, hnone, filter_nil, length_nil, Nat.cast_zero, map_nil,
    sum_nil, if_neg hcnt, if_neg hwt]
  rfl

theorem weightedMedian_returns {items : List ContributingReading} (h : items ≠ []) :
    ∃ value, weightedMedian host items = .ok value := by
  simp only [weightedMedian]
  split
  · exact ⟨_, rfl⟩
  split
  · exact ⟨_, rfl⟩
  rename_i hlast
  rw [getLast?_eq_none_iff, sortBy_eq_nil] at hlast
  exact absurd hlast h

/-- It throws for no other reason. -/
theorem computeConsensus_returns (hpol : input.policy = some stamped)
    (hread : DistinctReadings input.readings) (hlacks : ¬LacksContributor input stamped.data) :
    ∃ r, computeConsensus host input = .ok r := by
  rw [computeConsensus_eq hpol]
  simp only [decideOutcome]
  split
  · exact ⟨_, rfl⟩
  rename_i hcnt
  split
  · exact ⟨_, rfl⟩
  rename_i hwt
  have hsome : contributorsUnder host input stamped.data ≠ [] := by
    intro hnil
    have hnone := map_eq_nil_iff.1 hnil
    rw [hnone, filter_nil, length_nil, Nat.cast_zero, not_lt] at hcnt
    rw [hnil, map_nil, sum_nil, not_lt] at hwt
    refine hlacks ⟨?_, hcnt, hwt⟩
    intro s hs hcan
    obtain ⟨e, he, helig⟩ :=
      (@exists_eligible_iff host _ _ hread).2 ⟨s, hs, hcan⟩
    exact filter_eq_nil_iff.1 hnone e he helig
  obtain ⟨value, hvalue⟩ := @weightedMedian_returns host _ hsome
  rw [hvalue]
  exact ⟨_, rfl⟩

/-! ## Orderly consensus -/

/-- The penalty is about the two sources. -/
def PairPenalty.Joins (p : PairPenalty) (a b : String) : Prop :=
  p.sourceA = a ∧ p.sourceB = b ∨ p.sourceA = b ∧ p.sourceB = a

/-- What the engine promises about one input. -/
structure OrderlyConsensus (host : Host) (input : ConsensusInput) (policy : QuorumPolicyEvent) :
    Prop where
  unchanged : ∀ input', Reordered input input' →
    computeConsensus host input' = computeConsensus host input
  separated : ∀ r, computeConsensus host input = .ok r →
    ∀ e ∈ r.eligibility, ∀ e' ∈ r.eligibility, e.eligible = true → e.independent = true →
      e'.eligible = true → e'.independent = true →
      ∀ p ∈ input.penalties, ¬p.Joins e.sourceId e'.sourceId
  independent : ∀ r, computeConsensus host input = .ok r →
    (∃ e ∈ r.eligibility, e.eligible = true) →
      ∃ e ∈ r.eligibility, e.eligible = true ∧ e.independent = true
  quorum : ∀ r, computeConsensus host input = .ok r → r.outcome = .decision →
    (∃ cs : List ContributingReading, cs.Sublist r.contributing ∧
      policy.minSources ≤ cs.length ∧
      cs.Pairwise fun c c' => c.sourceId ≠ c'.sourceId ∧
        ∀ p ∈ input.penalties, ¬p.Joins c.sourceId c'.sourceId) ∧
    policy.minTotalWeight ≤ (r.contributing.map (·.effectiveWeight)).sum

variable {stamped : Stamped QuorumPolicyEvent} {r : ConsensusResult}

theorem computeConsensus_eligibility (hpol : input.policy = some stamped)
    (h : computeConsensus host input = .ok r) :
    r.eligibility = eligibilityUnder host input stamped.data := by
  rw [computeConsensus_eq hpol] at h
  exact (decideOutcome_spec h).2.2.1

theorem not_joins_of_independent (hinput : DistinctInput input) {e e' : SourceEligibility}
    (he : e ∈ eligibilityUnder host input policy) (he' : e' ∈ eligibilityUnder host input policy)
    (helig : e.eligible = true) (hind : e.independent = true) (helig' : e'.eligible = true)
    (hind' : e'.independent = true) (hp : p ∈ input.penalties) :
    ¬p.Joins e.sourceId e'.sourceId := by
  have hnd := @nodup_entriesUnder host input policy hinput.sources
  rintro (hjoins | hjoins)
  · exact not_both_independent hnd independent_entriesUnder he he' helig helig'
      hind hind' hp hjoins
  · exact not_both_independent hnd independent_entriesUnder he' he helig' helig
      hind' hind hp hjoins

/-- A decision rests on enough independent sources. -/
theorem exists_separated_contributors (hinput : DistinctInput input)
    (hpol : input.policy = some stamped) (h : computeConsensus host input = .ok r)
    (hdec : r.outcome = .decision) :
    (∃ cs : List ContributingReading, cs.Sublist r.contributing ∧
      stamped.data.minSources ≤ cs.length ∧
      cs.Pairwise fun c c' => c.sourceId ≠ c'.sourceId ∧
        ∀ p ∈ input.penalties, ¬p.Joins c.sourceId c'.sourceId) ∧
    stamped.data.minTotalWeight ≤ (r.contributing.map (·.effectiveWeight)).sum := by
  rw [computeConsensus_eq hpol] at h
  obtain ⟨-, -, -, hcont, hrequires⟩ := decideOutcome_spec h
  obtain ⟨hcnt, hwt, -⟩ := hrequires hdec
  rw [hcont]
  refine ⟨⟨(((eligibilityUnder host input stamped.data).filter (·.eligible)).filter
    (·.independent)).map (contribution (latestUnder input stamped.data)), ?_, ?_, ?_⟩, hwt⟩
  · exact filter_sublist.map _
  · rw [length_map]
    exact hcnt
  · rw [pairwise_map]
    have hids : (eligibilityUnder host input stamped.data).Pairwise
        fun e e' => e.sourceId ≠ e'.sourceId := by
      have hnd := @nodup_entriesUnder host input stamped.data hinput.sources
      rw [← ids_eligibilityUnder] at hnd
      exact pairwise_map.1 hnd
    refine (hids.sublist (filter_sublist.trans filter_sublist)).imp_of_mem ?_
    intro e e' he he' hne
    simp only [mem_filter] at he he'
    exact ⟨hne, fun p hp => not_joins_of_independent hinput he.1.1 he'.1.1 he.1.2 he.2 he'.1.2
      he'.2 hp⟩

/-- Two sources in one order among the sources are in that order in the result unless
`localeCompare` puts them the other way round. -/
theorem pair_sublist_eligibility [Std.TransCmp host.localeCompare]
    (hpol : input.policy = some stamped) {r : ConsensusResult}
    (h : computeConsensus host input = .ok r) {s s' : SourceState}
    (hsub : [s, s'].Sublist input.sources)
    (hcmp : host.localeCompare s.sourceId s'.sourceId = .eq) :
    [s.sourceId, s'.sourceId].Sublist (r.eligibility.map (·.sourceId)) := by
  rw [computeConsensus_eligibility hpol h, ids_eligibilityUnder, ids_entriesUnder]
  have hle :
      MayPrecede (fun a b : SourceState => host.localeCompare a.sourceId b.sourceId) s s' := by
    simp only [MayPrecede, hcmp]
    rfl
  exact (pair_sublist_sortBy hsub hle).map (·.sourceId)

/-- If the order of the sources never matters and the engine returns, `localeCompare` tells the
sources apart. -/
theorem tellsApart_of_unchanged [Std.TransCmp host.localeCompare] (hinput : DistinctInput input)
    (hpol : input.policy = some stamped) (h : computeConsensus host input = .ok r)
    (hunch : ∀ input', Reordered input input' →
      computeConsensus host input' = computeConsensus host input) :
    TellsApart host (input.sources.map (·.sourceId)) := by
  -- The engine sees the same sources back to front.
  have hreverse := hunch { input with sources := input.sources.reverse }
    ⟨rfl, rfl, rfl, reverse_perm _, List.Perm.refl _, .inl rfl⟩
  rw [h] at hreverse
  have hnd : (r.eligibility.map (·.sourceId)).Nodup := by
    rw [computeConsensus_eligibility hpol h, ids_eligibilityUnder]
    exact nodup_entriesUnder hinput.sources
  -- Two sources it does not tell apart stand in both orders.
  have hord : ∀ s s' : SourceState, [s, s'].Sublist input.sources →
      host.localeCompare s.sourceId s'.sourceId = .eq → s.sourceId = s'.sourceId := by
    intro s s' hsub hcmp
    have hforth := pair_sublist_eligibility hpol h hsub hcmp
    have hback : [s'.sourceId, s.sourceId].Sublist (r.eligibility.map (·.sourceId)) := by
      refine @pair_sublist_eligibility host { input with sources := input.sources.reverse } stamped
        _ hpol r hreverse s' s ?_ ?_
      · exact hsub.reverse
      · exact Std.OrientedCmp.eq_symm hcmp
    exact eq_of_pair_sublists hnd hforth hback
  intro a ha b hb hcmp
  obtain ⟨s, hs, rfl⟩ := mem_map.1 ha
  obtain ⟨s', hs', rfl⟩ := mem_map.1 hb
  by_cases hne : s = s'
  · rw [hne]
  rcases pair_sublist_of_mem hs hs' hne with hsub | hsub
  · exact hord s s' hsub hcmp
  · exact (hord s' s hsub (Std.OrientedCmp.eq_symm hcmp)).symm

/-- The order of the input does not matter, and the other promises hold, exactly when
`localeCompare` tells the ids of the sources apart or the engine throws for want of a
contributor. -/
theorem orderly_iff_tells_apart [Std.TransCmp host.localeCompare] (hinput : DistinctInput input)
    (hpolicy : input.policy = some stamped) :
    OrderlyConsensus host input stamped.data ↔
      TellsApart host (input.sources.map (·.sourceId)) ∨ LacksContributor input stamped.data := by
  constructor
  · intro horderly
    by_cases hlacks : LacksContributor input stamped.data
    · exact .inr hlacks
    · obtain ⟨r, hr⟩ := computeConsensus_returns hpolicy hinput.readings hlacks
      exact .inl (tellsApart_of_unchanged hinput hpolicy hr horderly.unchanged)
  · intro hcondition
    refine ⟨?_, ?_, ?_, ?_⟩
    · intro input' hreordered
      rcases hcondition with hapart | hlacks
      · exact computeConsensus_reordered hinput hapart hpolicy hreordered
      have hdistinct : DistinctReadings input'.readings := fun r hr r' hr' =>
        hinput.readings r (hreordered.readings.mem_iff.1 hr) r' (hreordered.readings.mem_iff.1 hr')
      rw [computeConsensus_throws hpolicy hinput.readings hlacks, computeConsensus_throws
        (hreordered.policy.trans hpolicy) hdistinct (hreordered.lacksContributor hlacks)]
    · intro r hr e he e' he' heligible hindependent heligible' hindependent' p hp
      rw [computeConsensus_eligibility hpolicy hr] at he he'
      exact not_joins_of_independent hinput he he' heligible hindependent heligible'
        hindependent' hp
    · intro r hr hsome
      rw [computeConsensus_eligibility hpolicy hr] at hsome ⊢
      exact exists_independent (nodup_entriesUnder hinput.sources) independent_entriesUnder
        hinput.pairs hsome
    · intro r hr hdecision
      exact exists_separated_contributors hinput hpolicy hr hdecision

/-! ## Two spellings of one id -/

/-- The canonical decomposition of one letter. -/
def decompose (s : String) : String :=
  String.ofList (s.toList.flatMap fun c =>
    if c.toNat = 0xe9 then [Char.ofNat 0x65, Char.ofNat 0x301] else [c])

/-- A host whose `localeCompare` does not tell canonically equivalent spellings apart, as the
Unicode collation does not. -/
def canonicalHost : Host :=
  { plainHost with localeCompare := fun a b => compareUnits (decompose a) (decompose b) }

/-- A source of a feed. -/
def feedSource (sourceId : String) (weight : ℚ) : SourceState :=
  ⟨sourceId, "provider", "ETH-USD", 1, .active, weight, 30, none, none, 0⟩

/-- Its reading. -/
def feedReading (sourceId : String) (value : ℚ) (seq : Nat) : ReadingState :=
  ⟨sourceId ++ ":1", "ETH-USD", sourceId, value, 900, none, none, .verified, seq⟩

/-- One independent source suffices. -/
def lenientPolicy : QuorumPolicyEvent :=
  ⟨"ETH-USD", 1, 1, 3, 1, 600, ⟨.lt, 100⟩, 0⟩

/-- Three sources, the second a suspected mirror of the first. -/
def mirroredInput : ConsensusInput :=
  ⟨"ETH-USD", 1000, some ⟨1, 0, lenientPolicy⟩,
    [feedSource "beta" 1, feedSource "alpha" 2, feedSource "gamma" 3],
    [feedReading "alpha" 90 2, feedReading "beta" 91 3, feedReading "gamma" 95 4],
    [⟨"alpha", "beta", 1 / 2⟩]⟩

theorem orderly_mirroredInput :
    OrderlyConsensus plainHost mirroredInput lenientPolicy ∧
    (computeConsensus plainHost mirroredInput).map (fun r => (r.outcome, r.value)) =
      .ok (.decision, some 95) :=
  ⟨(@orderly_iff_tells_apart plainHost mirroredInput ⟨1, 0, lenientPolicy⟩ _
      ⟨by decide +kernel, by decide +kernel, by decide +kernel⟩ rfl).2
    (.inl fun _ _ _ _ => Std.LawfulEqCmp.eq_of_compare), by decide +kernel⟩

/-- Two sources whose ids are two spellings of one word. -/
def spellings (sourceIds : List String) : ConsensusInput :=
  ⟨"ETH-USD", 1000, some ⟨1, 0, lenientPolicy⟩, sourceIds.map fun id => feedSource id 1,
    [feedReading "caf\u00e9" 90 2, feedReading "cafe\u0301" 95 3], []⟩

/-- Two sources `localeCompare` does not tell apart are listed as they came. -/
theorem spellings_keep_order :
    DistinctInput (spellings ["caf\u00e9", "cafe\u0301"]) ∧
    Reordered (spellings ["caf\u00e9", "cafe\u0301"]) (spellings ["cafe\u0301", "caf\u00e9"]) ∧
    computeConsensus canonicalHost (spellings ["cafe\u0301", "caf\u00e9"]) ≠
      computeConsensus canonicalHost (spellings ["caf\u00e9", "cafe\u0301"]) := by
  refine ⟨⟨by decide +kernel, by decide +kernel, by decide +kernel⟩,
    ⟨rfl, rfl, rfl, List.Perm.swap _ _ _, List.Perm.refl _, .inl rfl⟩, by decide +kernel⟩

end Refract.Consensus
