import Refract.Lib.Grouping
import Refract.Lib.Json
import Refract.Lib.OrderStatistics
import Refract.Lib.Sorting

/-!
# Consensus over one round of observations

`evaluateConsensus` of `consensus.ts`. Observations come unchecked: an entry of the list may be
missing altogether, and a field may hold any value. The numbers of a policy are unchecked as well;
`validateConsensusPolicy` turns a usable policy into a `ValidPolicy`, which carries the bounds.

An entry that is `null` or `undefined` is given the id `undefined` and then makes the evaluation
throw when its weight is read, and so does a field that `String` cannot print; everything else is
classified (`evaluateConsensus_eq_ok`).
-/

namespace Refract.Consensus

open Lib List

/-! ## Observations and policies -/

/-- One source's report, with fields as they come. -/
structure SourceObservation where
  sourceId : JsValue
  value : JsValue
  weight : JsValue
  observedAt : JsValue

/-- An entry of the list of observations. -/
inductive ObservationEntry where
  | undefined
  | null
  | object (o : SourceObservation)

/-- `entry?.field`. -/
def ObservationEntry.read (field : SourceObservation → JsValue) : ObservationEntry → JsValue
  | .object o => field o
  | _ => .undefined

/-- The entry is there. -/
def ObservationEntry.isObject : ObservationEntry → Bool
  | .object _ => true
  | _ => false

/-- The fields that `computeDecisionId` prints. -/
def observationFields : List (SourceObservation → JsValue) :=
  [(·.sourceId), (·.value), (·.weight), (·.observedAt)]

/-- The entry is there, and all its fields can be printed. -/
def ObservationEntry.isReadable (entry : ObservationEntry) : Bool :=
  entry.isObject && observationFields.all fun field => (entry.read field).isPrintable

structure ConsensusPolicy where
  quorumRatio : JsNumber
  minAgreeingSources : JsNumber
  maxDeviationRatio : JsNumber
  absoluteDeviationFloor : JsNumber
  maxStalenessMs : JsNumber
  maxFutureSkewMs : JsNumber

/-- `DEFAULT_CONSENSUS_POLICY`. -/
def defaultConsensusPolicy : ConsensusPolicy where
  quorumRatio := .finite (2 / 3)
  minAgreeingSources := .finite 2
  maxDeviationRatio := .finite (2 / 100)
  absoluteDeviationFloor := .finite 0
  maxStalenessMs := .finite (5 * 60000)
  maxFutureSkewMs := .finite 30000

/-- A policy that has passed validation. -/
structure ValidPolicy where
  quorumRatio : ℚ
  minAgreeingSources : ℕ
  maxDeviationRatio : ℚ
  absoluteDeviationFloor : ℚ
  maxStalenessMs : ℚ
  maxFutureSkewMs : ℚ
  quorumRatio_pos : 0 < quorumRatio
  quorumRatio_le_one : quorumRatio ≤ 1
  one_le_minAgreeingSources : 1 ≤ minAgreeingSources
  maxDeviationRatio_nonneg : 0 ≤ maxDeviationRatio
  absoluteDeviationFloor_nonneg : 0 ≤ absoluteDeviationFloor
  maxStalenessMs_nonneg : 0 ≤ maxStalenessMs
  maxFutureSkewMs_nonneg : 0 ≤ maxFutureSkewMs
  deriving DecidableEq

/-- In `(0, 1]`. -/
def checkRatio : JsNumber → Option { q : ℚ // 0 < q ∧ q ≤ 1 }
  | .finite q => if h : 0 < q ∧ q ≤ 1 then some ⟨q, h⟩ else none
  | _ => none

/-- An integer, at least one. -/
def checkCount : JsNumber → Option { n : ℕ // 1 ≤ n }
  | .finite q =>
    if h : q.den = 1 ∧ 1 ≤ q.num.toNat then some ⟨q.num.toNat, h.2⟩ else none
  | _ => none

/-- Finite and not negative. -/
def checkNonneg : JsNumber → Option { q : ℚ // 0 ≤ q }
  | .finite q => if h : 0 ≤ q then some ⟨q, h⟩ else none
  | _ => none

/-- The problems `validateConsensusPolicy` reports. -/
def policyProblems (p : ConsensusPolicy) : List String :=
  (if (checkRatio p.quorumRatio).isNone then ["quorumRatio must be in (0, 1]"] else []) ++
  (if (checkCount p.minAgreeingSources).isNone then
    ["minAgreeingSources must be an integer >= 1"] else []) ++
  [("maxDeviationRatio", p.maxDeviationRatio),
    ("absoluteDeviationFloor", p.absoluteDeviationFloor),
    ("maxStalenessMs", p.maxStalenessMs),
    ("maxFutureSkewMs", p.maxFutureSkewMs)].filterMap fun (key, n) =>
      if (checkNonneg n).isNone then some (key ++ " must be finite and >= 0") else none

def validateConsensusPolicy (p : ConsensusPolicy) : Except JsError ValidPolicy :=
  match checkRatio p.quorumRatio, checkCount p.minAgreeingSources,
    checkNonneg p.maxDeviationRatio, checkNonneg p.absoluteDeviationFloor,
    checkNonneg p.maxStalenessMs, checkNonneg p.maxFutureSkewMs with
  | some ratio, some count, some deviation, some floor, some staleness, some skew =>
    .ok ⟨ratio, count, deviation, floor, staleness, skew, ratio.2.1, ratio.2.2, count.2,
      deviation.2, floor.2, staleness.2, skew.2⟩
  | _, _, _, _, _, _ => .error (.rangeError ("Invalid consensus policy: " ++
      String.intercalate "; " (policyProblems p)))

/-! ## Arithmetic -/

/-- `median`. -/
def median (values : List ℚ) : Except JsError ℚ :=
  match middle (sortBy compare values) with
  | some m => .ok m
  | none => .error (.rangeError "median() of an empty list")

/-- Largest distance from the center that still counts as agreement. -/
def deviationTolerance (center : ℚ) (policy : ValidPolicy) : ℚ :=
  max (policy.maxDeviationRatio * |center|) policy.absoluteDeviationFloor

def isAnomalous (value center : ℚ) (policy : ValidPolicy) : Bool :=
  decide (deviationTolerance center policy < |value - center|)

/-- The weighted quorum check. -/
def meetsQuorum (agreeingWeight totalWeight quorumRatio : ℚ) : Bool :=
  decide (0 < totalWeight ∧ 0 ≤ agreeingWeight ∧ quorumRatio ≤ agreeingWeight / totalWeight)

/-- A weight that counts. -/
def usableWeight? (weight : JsValue) : Option ℚ := weight.finiteNumber?.filter fun w => 0 ≤ w

/-! ## Screening -/

/-- A well-formed observation. -/
structure Report where
  sourceId : String
  value : ℚ
  weight : ℚ
  observedAt : ℚ
  deriving DecidableEq, Repr

section Screening

variable (policy : ValidPolicy) (now : ℚ)

/-- The report of an observation whose fields are as they should be. -/
def wellFormed? (o : SourceObservation) : Option Report :=
  match o.sourceId.string?, o.value.finiteNumber?, usableWeight? o.weight,
    o.observedAt.finiteNumber? with
  | some sourceId, some value, some weight, some observedAt =>
    if sourceId ≠ "" ∧ observedAt ≤ now + policy.maxFutureSkewMs then
      some ⟨sourceId, value, weight, observedAt⟩
    else none
  | _, _, _, _ => none

def isStale (r : Report) : Bool := decide (policy.maxStalenessMs < now - r.observedAt)

/-- What screening makes of a source. -/
inductive Screening where
  | invalid
  | stale
  | fresh (r : Report)
  deriving DecidableEq, Repr

/-- Screens the observations of one source: more than one make it invalid. -/
def screen : List ObservationEntry → Screening
  | [.object o] =>
    match wellFormed? policy now o with
    | none => .invalid
    | some r => if isStale policy now r then .stale else .fresh r
  | _ => .invalid

def Screening.fresh? : Screening → Option Report
  | .fresh r => some r
  | _ => none

end Screening

/-- The id an entry is filed under. -/
def entryId (host : Host) (entry : ObservationEntry) : String :=
  host.showValue (entry.read (·.sourceId))

/-- The observations by source id. -/
def groupBySource (host : Host) (observations : List ObservationEntry) :
    OrdMap String (List ObservationEntry) :=
  groupBy (entryId host) observations

/-- `entry.weight`. -/
def readWeight : ObservationEntry → Except JsError JsValue
  | .object o => .ok o.weight
  | .undefined =>
    .error (.typeError "Cannot read properties of undefined (reading 'weight')")
  | .null => .error (.typeError "Cannot read properties of null (reading 'weight')")

/-- What a source adds to the quorum denominator: its largest usable weight. -/
def groupWeight (copies : List ObservationEntry) : Except JsError ℚ :=
  (collect (copies.map readWeight)).map fun weights =>
    ((weights.filterMap usableWeight?).max?).getD 0

/-! ## Decisions -/

inductive TrustTier where
  | unverified
  | singleSource
  | corroborated
  | unanimous
  deriving DecidableEq, Repr

inductive ConsensusStatus where
  | agreed
  | noValidSources
  | insufficientSources
  | noQuorum
  deriving DecidableEq, Repr

def ConsensusStatus.text : ConsensusStatus → String
  | .agreed => "agreed"
  | .noValidSources => "no_valid_sources"
  | .insufficientSources => "insufficient_sources"
  | .noQuorum => "no_quorum"

structure ConsensusDecision where
  status : ConsensusStatus
  value : Option ℚ
  trustTier : TrustTier
  decisionId : String
  center : Option ℚ
  agreeingSources : List String
  outlierSources : List String
  staleSources : List String
  invalidSources : List String
  agreeingWeight : ℚ
  totalWeight : ℚ
  sourceTimestamp : Option ℚ
  evaluatedAt : ℚ
  deriving DecidableEq, Repr

section Decision

variable (host : Host) (sha : String → String)

/-- The row of an observation in the digest. -/
def decisionRow (entry : ObservationEntry) : String :=
  String.intercalate "|" [host.showValue (entry.read (·.sourceId)),
    host.showValue (entry.read (·.value)), host.showValue (entry.read (·.weight)),
    host.showValue (entry.read (·.observedAt))]

/-- A JSON array of strings. -/
def jsonStrings (items : List String) : String :=
  "[" ++ String.intercalate "," (items.map quoteJson) ++ "]"

/-- `computeDecisionId`: the first sixteen digits of the digest of the sorted inputs and the
outcome. -/
def computeDecisionId (observations : List ObservationEntry) (policy : ConsensusPolicy)
    (status : ConsensusStatus) (value : Option ℚ) (evaluatedAt : ℚ) : String :=
  let rows := sortBy compareUnits (observations.map (decisionRow host))
  let canonical := "\x7b\"v\":1,\"rows\":" ++ jsonStrings rows ++ ",\"policy\":" ++
    jsonStrings ([policy.quorumRatio, policy.minAgreeingSources, policy.maxDeviationRatio,
      policy.absoluteDeviationFloor, policy.maxStalenessMs, policy.maxFutureSkewMs].map
        host.showNumber) ++
    ",\"status\":" ++ quoteJson status.text ++
    ",\"value\":" ++ quoteJson ((value.map host.numberToString).getD "null") ++
    ",\"at\":" ++ quoteJson (host.numberToString evaluatedAt) ++ "\x7d"
  takeChars 16 (sha canonical)

/-- What the sources of a round are screened into. -/
structure Round where
  invalid : List String
  stale : List String
  fresh : List Report
  totalWeight : ℚ

/-- The loop over the sources. -/
def screenRound (observations : List ObservationEntry) (policy : ValidPolicy) (now : ℚ) :
    Except JsError Round :=
  let groups := (groupBySource host observations).entries
  (collect (groups.map fun group => groupWeight group.2)).map fun weights =>
    { invalid := (groups.filter fun group => screen policy now group.2 = .invalid).map (·.1)
      stale := (groups.filter fun group => screen policy now group.2 = .stale).map (·.1)
      fresh := groups.filterMap fun group => (screen policy now group.2).fresh?
      totalWeight := weights.sum }

/-- The status of a round with fresh reports. -/
def statusOfRound (policy : ValidPolicy) (agreeing : List Report) (agreeingWeight totalWeight : ℚ) :
    ConsensusStatus :=
  if agreeing.length < policy.minAgreeingSources then .insufficientSources
  else if !meetsQuorum agreeingWeight totalWeight policy.quorumRatio then .noQuorum
  else .agreed

def trustTierOf (round : Round) (agreeing outliers : List Report) : TrustTier :=
  if agreeing.length = 1 then .singleSource
  else if 3 ≤ agreeing.length ∧ outliers = [] ∧ round.stale = [] ∧ round.invalid = [] then
    .unanimous
  else .corroborated

/-- The decision on a round that has been screened. -/
def decideRound (observations : List ObservationEntry) (policy : ConsensusPolicy)
    (valid : ValidPolicy) (now : ℚ) (round : Round) : Except JsError ConsensusDecision :=
  let invalidSources := sortBy compareUnits round.invalid
  let staleSources := sortBy compareUnits round.stale
  if round.fresh = [] then
    .ok {
      status := .noValidSources
      value := none
      trustTier := .unverified
      decisionId := computeDecisionId host sha observations policy .noValidSources none now
      center := none
      agreeingSources := []
      outlierSources := []
      staleSources
      invalidSources
      agreeingWeight := 0
      totalWeight := round.totalWeight
      sourceTimestamp := none
      evaluatedAt := now }
  else do
    let center ← median (round.fresh.map (·.value))
    let agreeing := round.fresh.filter fun r => !isAnomalous r.value center valid
    let outliers := round.fresh.filter fun r => isAnomalous r.value center valid
    let agreeingWeight := (agreeing.map (·.weight)).sum
    let status := statusOfRound valid agreeing agreeingWeight round.totalWeight
    let value ← if status = .agreed then (median (agreeing.map (·.value))).map some else .ok none
    return {
      status
      value
      trustTier :=
        if status = .agreed then trustTierOf round agreeing outliers else .unverified
      decisionId := computeDecisionId host sha observations policy status value now
      center := some center
      agreeingSources := sortBy compareUnits (agreeing.map (·.sourceId))
      outlierSources := sortBy compareUnits (outliers.map (·.sourceId))
      staleSources
      invalidSources
      agreeingWeight
      totalWeight := round.totalWeight
      sourceTimestamp :=
        if status = .agreed then (agreeing.map (·.observedAt)).min? else none
      evaluatedAt := now }

/-- `String` of some fields of every observation. -/
def printFields (fields : List (SourceObservation → JsValue))
    (observations : List ObservationEntry) : Except JsError Unit :=
  if ∀ entry ∈ observations, fields.all fun field => (entry.read field).isPrintable then .ok ()
  else .error (.typeError "Cannot convert object to primitive value")

/-- `evaluateConsensus`: the ids are printed before the sources are screened, and everything when
the decision id is computed. -/
def evaluateConsensus (observations : List ObservationEntry) (policy : ConsensusPolicy)
    (now : JsNumber) : Except JsError ConsensusDecision := do
  let valid ← validateConsensusPolicy policy
  match now with
  | .finite now => do
      printFields [(·.sourceId)] observations
      let round ← screenRound host observations valid now
      printFields observationFields observations
      decideRound host sha observations policy valid now round
  | now => .error (.rangeError ("evaluateConsensus() requires a finite 'now', got " ++
      host.showNumber now))

end Decision

/-! ## Medians -/

theorem isMedian_of_median {values : List ℚ} {m : ℚ} (h : median values = .ok m) :
    IsMedian values m := by
  unfold median at h
  split at h
  · rename_i m' hm
    cases h
    exact (isMedian_of_middle (sortBy_compare_pairwise values) hm).perm sortBy_perm
  · cases h

theorem median_ok {reports : List Report} (h : reports ≠ []) :
    ∃ m, median (reports.map (·.value)) = .ok m := by
  have hsort : sortBy compare (reports.map (·.value)) ≠ [] := by
    rw [Ne, sortBy_eq_nil, map_eq_nil_iff]
    exact h
  obtain ⟨m, hm⟩ := middle_isSome hsort
  exact ⟨m, by simp only [median, hm]⟩

/-! ## Screening -/

variable {host : Host} {policy : ValidPolicy} {now : ℚ} {observations : List ObservationEntry}

/-- The report of an entry that is well formed and fresh. -/
def reportOf (policy : ValidPolicy) (now : ℚ) (entry : ObservationEntry) : Option Report :=
  (screen policy now [entry]).fresh?

theorem fresh?_screen (copies : List ObservationEntry) :
    (screen policy now copies).fresh? = (onlyMember copies).bind (reportOf policy now) := by
  rcases copies with _ | ⟨entry, _ | ⟨other, rest⟩⟩
  · rfl
  · rfl
  · cases entry <;> rfl

theorem nonneg_of_usableWeight? {weight : JsValue} {w : ℚ} (h : usableWeight? weight = some w) :
    0 ≤ w := by
  obtain ⟨-, hw⟩ := Option.filter_eq_some_iff.1 h
  exact of_decide_eq_true hw

theorem wellFormed?_spec {o : SourceObservation} {r : Report}
    (h : wellFormed? policy now o = some r) : o.sourceId = .string r.sourceId ∧ 0 ≤ r.weight := by
  simp only [wellFormed?] at h
  split at h
  · rename_i sourceId value weight observedAt hid hvalue hwt hobserved
    split at h
    · cases h
      refine ⟨?_, nonneg_of_usableWeight? hwt⟩
      cases hfield : o.sourceId <;> simp_all [JsValue.string?]
    · cases h
  · cases h

section

variable {entry : ObservationEntry} {r : Report} (h : reportOf policy now entry = some r)

include h

/-- Only an object that is well formed has a report. -/
theorem wellFormed?_of_reportOf : ∃ o, entry = .object o ∧ wellFormed? policy now o = some r := by
  cases entry with
  | undefined | null => cases h
  | object o =>
    refine ⟨o, rfl, ?_⟩
    simp only [reportOf, screen] at h
    split at h
    · cases h
    rename_i r' hr'
    split at h
    · cases h
    · cases h
      exact hr'

theorem entryId_of_reportOf : entryId host entry = r.sourceId := by
  obtain ⟨o, rfl, hwell⟩ := wellFormed?_of_reportOf h
  simp only [entryId, ObservationEntry.read, (wellFormed?_spec hwell).1, Host.showValue]

theorem weight_nonneg_of_reportOf : 0 ≤ r.weight := by
  obtain ⟨o, rfl, hwell⟩ := wellFormed?_of_reportOf h
  exact (wellFormed?_spec hwell).2

end

/-- The weight of an observation, if it counts. -/
def entryWeight? (entry : ObservationEntry) : Option ℚ := usableWeight? (entry.read (·.weight))

theorem groupWeight_of_objects {copies : List ObservationEntry}
    (h : ∀ entry ∈ copies, entry.isObject = true) :
    groupWeight copies = .ok (((copies.filterMap entryWeight?).max?).getD 0) := by
  have hread : collect (copies.map readWeight) =
      .ok (copies.map fun entry => entry.read (·.weight)) := by
    apply collect_map_ok
    intro entry hent
    have hobj := h entry hent
    cases entry with
    | undefined | null => cases hobj
    | object => rfl
  simp only [groupWeight, hread, Except.map, filterMap_map]
  rfl

theorem collect_groupWeight (h : ∀ entry ∈ observations, entry.isObject = true) :
    collect ((groupBySource host observations).entries.map fun group => groupWeight group.2) =
      .ok ((groupBySource host observations).entries.map
        fun group => ((group.2.filterMap entryWeight?).max?).getD 0) := by
  apply collect_map_ok
  rintro ⟨id, copies⟩ hgroup
  exact groupWeight_of_objects fun entry hent => h entry (mem_of_groupBy hgroup hent)

/-- Only a missing entry makes the loop over the sources throw. -/
theorem screenRound_ok (h : ∀ entry ∈ observations, entry.isObject = true) :
    ∃ round, screenRound host observations policy now = .ok round := by
  rw [screenRound, collect_groupWeight h]
  exact ⟨_, rfl⟩

/-- An entry that is missing makes the loop over the sources throw. -/
theorem isObject_of_screenRound {round : Round}
    (h : screenRound host observations policy now = .ok round)
    {entry : ObservationEntry} (hent : entry ∈ observations) : entry.isObject = true := by
  obtain ⟨⟨id, copies⟩, hgroup, hcopy⟩ := exists_mem_groupBy (entryId host) hent
  obtain ⟨weights, hcoll, -⟩ := exceptMap_eq_ok h
  obtain ⟨weight, hwt, -⟩ := exists_of_collect hcoll (mem_map_of_mem hgroup)
  obtain ⟨reads, hread, -⟩ := exceptMap_eq_ok hwt
  obtain ⟨w, hw, -⟩ := exists_of_collect hread (mem_map_of_mem hcopy)
  cases entry with
  | undefined | null => cases hw
  | object => rfl

theorem isObject_of_isReadable (h : ∀ entry ∈ observations, entry.isReadable = true) :
    ∀ entry ∈ observations, entry.isObject = true :=
  fun entry hent => (Bool.and_eq_true_iff.1 (h entry hent)).1

/-- The evaluation returns exactly if every entry is there and its fields can be printed. -/
theorem evaluateConsensus_eq_ok {sha : String → String} {p : ConsensusPolicy}
    {d : ConsensusDecision} (hpolicy : validateConsensusPolicy p = .ok policy) :
    evaluateConsensus host sha observations p (.finite now) = .ok d ↔
      (∀ entry ∈ observations, entry.isReadable = true) ∧
        ∃ round, screenRound host observations policy now = .ok round ∧
          decideRound host sha observations p policy now round = .ok d := by
  simp only [evaluateConsensus, hpolicy, exceptOk_bind]
  constructor
  · intro h
    obtain ⟨_, -, h⟩ := exceptBind_eq_ok h
    obtain ⟨round, hround, h⟩ := exceptBind_eq_ok h
    obtain ⟨_, hprint, hd⟩ := exceptBind_eq_ok h
    rw [printFields] at hprint
    split at hprint
    · rename_i hprints
      refine ⟨fun entry hent => ?_, round, hround, hd⟩
      exact Bool.and_eq_true_iff.2 ⟨isObject_of_screenRound hround hent, hprints entry hent⟩
    · cases hprint
  · rintro ⟨hread, round, hround, hd⟩
    have hprints := fun entry hent => (Bool.and_eq_true_iff.1 (hread entry hent)).2
    have hids : ∀ entry ∈ observations, [fun o : SourceObservation => o.sourceId].all
        fun field => (entry.read field).isPrintable := by
      intro entry hent
      have hall := hprints entry hent
      simp only [observationFields, all_cons, Bool.and_eq_true] at hall
      simp [hall.1]
    rw [printFields, if_pos hids, exceptOk_bind, hround, exceptOk_bind, printFields,
      if_pos hprints, exceptOk_bind]
    exact hd

/-- The fresh reports of a round are those of the entries whose id no other entry has. -/
theorem screenRound_fresh_perm {round : Round}
    (h : screenRound host observations policy now = .ok round) :
    round.fresh.Perm ((observations.filter (standsAlone (entryId host) observations)).filterMap
      (reportOf policy now)) := by
  have hfresh : round.fresh = (groupBySource host observations).entries.filterMap
      fun group => (screen policy now group.2).fresh? := by
    obtain ⟨weights, -, rfl⟩ := exceptMap_eq_ok h
    rfl
  have hgroups := (entries_groupBy_perm (entryId host) observations).filterMap
    fun group => (screen policy now group.2).fresh?
  have halone := (standsAlone_perm (entryId host) observations).filterMap (reportOf policy now)
  rw [filterMap_filterMap] at halone
  rw [filterMap_map] at hgroups
  rw [hfresh]
  refine hgroups.trans (List.Perm.trans (.of_eq ?_) halone)
  exact filterMap_congr fun id _ => fresh?_screen _

/-! ## Decisions -/

variable {sha : String → String} {p : ConsensusPolicy} {valid : ValidPolicy} {round : Round}

theorem agreeing_ne_nil {agreeing : List Report} {agreeingWeight totalWeight : ℚ}
    (h : statusOfRound valid agreeing agreeingWeight totalWeight = .agreed) : agreeing ≠ [] := by
  rintro rfl
  have hone := valid.one_le_minAgreeingSources
  have hshort : ([] : List Report).length < valid.minAgreeingSources := hone
  rw [statusOfRound, if_pos hshort] at h
  cases h

/-- A screened round has a decision. With fresh reports its center is a median of their values,
and an agreed value is a median of the values that are not anomalous. -/
theorem decideRound_spec : ∃ d, decideRound host sha observations p valid now round = .ok d ∧
    (round.fresh ≠ [] → ∃ center, d.center = some center ∧
      IsMedian (round.fresh.map (·.value)) center ∧
      (d.status = .agreed → ∃ v, d.value = some v ∧
        IsMedian ((round.fresh.filter fun r => !isAnomalous r.value center valid).map (·.value))
          v)) := by
  unfold decideRound
  split
  · rename_i hfresh
    exact ⟨_, rfl, fun h => absurd hfresh h⟩
  rename_i hfresh
  obtain ⟨center, hctr⟩ := median_ok hfresh
  simp only [hctr, exceptOk_bind]
  split
  · rename_i hagreed
    obtain ⟨v, hv⟩ := median_ok (agreeing_ne_nil hagreed)
    rw [hv]
    exact ⟨_, rfl, fun _ => ⟨center, rfl, isMedian_of_median hctr, fun _ =>
      ⟨v, rfl, isMedian_of_median hv⟩⟩⟩
  · rename_i hoth
    exact ⟨_, rfl, fun _ => ⟨center, rfl, isMedian_of_median hctr, fun h =>
      absurd h hoth⟩⟩

end Refract.Consensus
