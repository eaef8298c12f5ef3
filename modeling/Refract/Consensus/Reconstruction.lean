import Refract.Lib.Json
import Refract.Consensus.ConsensusEngine

/-!
# Historical reconstruction

`reconstructConsensusState` of `reconstruction.ts`, with everything it returns. The main result,
`reconstructConsensusState_at_reserved`, says that a decision computed from the ledger and recorded
at the reserved timestamp is recomputed from the same evidence at any later time, whatever has been
appended since: the events known at that timestamp are exactly the log up to the decision.

Two things in what comes back are not the recorded decision. The query time goes through
`Date.toISOString`, which throws outside the range of a `Date`, and the returned reason is
relabelled when a policy is in force and no source is registered.
-/

namespace Refract.Consensus

open Lib EvidenceLedger List

structure ReconstructionQuery where
  feedId : String
  /-- `at` in the source, milliseconds from the epoch. -/
  atTime : Option ℚ
  ledgerSeq : Option ℚ

/-- The fields of a decision that are recomputed. -/
structure DecisionSummary where
  outcome : DecisionOutcome
  value : Option ℚ
  triggered : Bool
  reason : String
  policyVersion : Option ℚ
  contributing : List ContributingReading
  deriving DecidableEq, Repr

structure QueryOut where
  feedId : String
  atIso : Option String
  ledgerSeq : Option ℚ
  deriving DecidableEq, Repr

/-- The recomputed eligibility of a source, with what its version says of it. -/
structure ReconstructedSource where
  eligibility : SourceEligibility
  providerId : String
  effectiveFrom : ℚ
  deriving DecidableEq, Repr

structure ReconstructedReading where
  readingId : String
  sourceId : String
  value : ℚ
  observedAt : ℚ
  ledgerSeq : Option ℚ
  payloadHash : Option String
  signature : SignatureStatus
  deriving DecidableEq, Repr

/-- The policy in force, without its ledger position. -/
structure ReconstructedPolicy where
  policy : QuorumPolicyEvent
  recordedAt : ℚ
  deriving DecidableEq, Repr

structure ReconstructedPenalty where
  penaltyId : String
  sourceA : String
  sourceB : String
  factor : ℚ
  matchRatio : ℚ
  recordedAt : ℚ
  deriving DecidableEq, Repr

structure RecordedDecision where
  decisionId : String
  atTime : ℚ
  atIso : String
  summary : DecisionSummary
  deriving DecidableEq, Repr

inductive Consistency where
  | matchesRecorded
  | differsFromRecorded
  | noDecisionRecordedAtT
  deriving DecidableEq, Repr

structure ReconstructedState where
  query : QueryOut
  resolvedAt : Option ℚ
  resolvedAtIso : Option String
  knowledgeCutoffSeq : Option Nat
  quorumPolicy : Option ReconstructedPolicy
  independencePenalties : List ReconstructedPenalty
  sources : List ReconstructedSource
  contributingReadings : List ReconstructedReading
  decision : DecisionSummary
  recordedDecision : Option RecordedDecision
  consistency : Consistency
  deriving DecidableEq, Repr

/-! ## Summaries -/

def ConsensusResult.summary (r : ConsensusResult) : DecisionSummary :=
  ⟨r.outcome, r.value, r.triggered, r.reason, r.policyVersion, r.contributing⟩

def DecisionEvent.summary (d : DecisionEvent) : DecisionSummary :=
  ⟨d.outcome, d.value, d.triggered, d.reason, d.policyVersion, d.contributing⟩

def DecisionOutcome.text : DecisionOutcome → String
  | .decision => "decision"
  | .noDecision => "no_decision"

/-- A number that may be absent. -/
def jsonNumber? : Option ℚ → Json
  | none => .null
  | some q => .number (.finite q)

/-- A contributor; one recorded without the `independent` flag counts as independent. -/
def contributingJson (c : ContributingReading) : Json :=
  .object [("readingId", .string c.readingId), ("sourceId", .string c.sourceId),
    ("value", .number (.finite c.value)), ("effectiveWeight", .number (.finite c.effectiveWeight)),
    ("independent", .bool (c.independent.getD true))]

/-- The text two decisions are compared by. -/
def summarise (host : Host) (d : DecisionSummary) : Except JsError String :=
  canonicalJson host (.object [("outcome", .string d.outcome.text), ("value", jsonNumber? d.value),
    ("triggered", .bool d.triggered), ("reason", .string d.reason),
    ("policyVersion", jsonNumber? d.policyVersion),
    ("contributing", .array (d.contributing.map contributingJson))])

def noDecision (reason : String) : DecisionSummary :=
  ⟨.noDecision, none, false, reason, none, []⟩

/-- What the engine is given at `t`: the lookups live decisions and reconstruction share. -/
def consensusInputAt (host : Host) (events : List EvidenceEvent) (feedId : String) (t : ℚ) :
    ConsensusInput where
  feedId
  atTime := t
  policy := policyAt events feedId t
  sources := sourcesAt host events feedId t
  readings := readingsAt events feedId t
  penalties := (penaltiesAt events feedId t).map fun p =>
    ⟨p.data.sourceA, p.data.sourceB, p.data.factor⟩

/-! ## Reconstruction -/

/-- The reading a contributor names: the last with its id. -/
def contributingReading (readings : List ReadingState) (c : ContributingReading) :
    Except JsError ReconstructedReading :=
  match readings.reverse.find? (fun r => r.readingId = c.readingId) with
  | some r =>
    .ok ⟨r.readingId, r.sourceId, r.value, r.observedAt, r.ledgerSeq, r.payloadHash, r.signature⟩
  | none => .error (undefinedProperty "readingId")

/-- The eligibility of a source with its provider and start; a source not found has defaults. -/
def reconstructedSource (sources : List SourceState) (e : SourceEligibility) :
    ReconstructedSource :=
  let source := sources.reverse.find? fun s => s.sourceId = e.sourceId
  ⟨e, (source.map (·.providerId)).getD "", (source.map (·.effectiveFrom)).getD 0⟩

/-- The returned decision: the engine's, with a friendlier reason when no source is registered. -/
def returnedDecision (input : ConsensusInput) (result : ConsensusResult) : DecisionSummary :=
  { result.summary with
    reason := if input.sources = [] ∧ input.policy.isSome then "no_sources_registered_at_t"
      else result.reason }

def recordedSummary (d : Stamped DecisionEvent) : Except JsError RecordedDecision :=
  (toISOString d.data.atTime).map fun atIso =>
    ⟨d.data.decisionId, d.data.atTime, atIso, d.data.summary⟩

/-- Compares the engine's own result, not the relabelled one, with a decision recorded at `t`. -/
def consistencyAt (host : Host) (t : ℚ) (result : ConsensusResult)
    (recorded : Option (Stamped DecisionEvent)) : Except JsError Consistency :=
  match recorded with
  | none => .ok .noDecisionRecordedAtT
  | some d =>
    if d.data.atTime = t then do
      let recomputed ← summarise host result.summary
      let recordedText ← summarise host d.data.summary
      .ok (if recomputed = recordedText then .matchesRecorded else .differsFromRecorded)
    else .ok .noDecisionRecordedAtT

/-- The state at a resolved instant `t`, from the events visible to the query. -/
def reconstructAt (host : Host) (visible : List EvidenceEvent) (query : QueryOut) (t : ℚ) :
    Except JsError ReconstructedState := do
  let known := visible.filter fun e => e.recordedAt ≤ t
  let input := consensusInputAt host known query.feedId t
  let result ← computeConsensus host input
  let recorded := decisionInForceAt known query.feedId t
  let recordedDecision ← match recorded with
    | none => .ok none
    | some d => (recordedSummary d).map some
  let consistency ← consistencyAt host t result recorded
  let resolvedAtIso ← toISOString t
  let contributingReadings ← collect (result.contributing.map (contributingReading input.readings))
  .ok { query
        resolvedAt := some t
        resolvedAtIso := some resolvedAtIso
        knowledgeCutoffSeq := known.getLast?.map (·.seq)
        quorumPolicy := input.policy.map fun p => ⟨p.data, p.recordedAt⟩
        independencePenalties := (penaltiesAt known query.feedId t).map fun p =>
          ⟨p.data.penaltyId, p.data.sourceA, p.data.sourceB, p.data.factor, p.data.matchRatio,
            p.recordedAt⟩
        sources := result.eligibility.map (reconstructedSource input.sources)
        contributingReadings
        decision := returnedDecision input result
        recordedDecision
        consistency }

/-- The events a ledger query sees: those not stamped with a later sequence. -/
def visibleAtLedger (events : List EvidenceEvent) (ledgerSeq : ℚ) : List EvidenceEvent :=
  events.filter fun e => match e.data.ledgerSeq with
    | none => true
    | some s => decide (s ≤ ledgerSeq)

/-- The time a ledger query resolves to: the last recording time of a stamped visible event. -/
def resolveLedger (visible : List EvidenceEvent) (ledgerSeq : ℚ) : Option ℚ :=
  visible.foldl (fun t e => match e.data.ledgerSeq with
    | none => t
    | some s =>
      if s ≤ ledgerSeq then
        some (match t with
          | none => e.recordedAt
          | some t => max t e.recordedAt)
      else t) none

/-- Reconstructs the consensus state of a feed as it was at a past instant. -/
def reconstructConsensusState (host : Host) (events : List EvidenceEvent)
    (query : ReconstructionQuery) : Except JsError ReconstructedState := do
  let atIso ← match query.atTime with
    | none => .ok none
    | some t => (toISOString t).map some
  let queryOut : QueryOut := ⟨query.feedId, atIso, query.ledgerSeq⟩
  let (visible, t) := match query.ledgerSeq with
    | none => (events, query.atTime)
    | some l => (visibleAtLedger events l, resolveLedger (visibleAtLedger events l) l)
  match t with
  | some t => reconstructAt host visible queryOut t
  | none =>
    let ledgerText := match query.ledgerSeq with
      | none => "undefined"
      | some l => host.numberToString l
    .ok { query := queryOut
          resolvedAt := none
          resolvedAtIso := none
          knowledgeCutoffSeq := none
          quorumPolicy := none
          independencePenalties := []
          sources := []
          contributingReadings := []
          decision := noDecision ("no_evidence_at_or_before_ledger_" ++ ledgerText)
          recordedDecision := none
          consistency := .noDecisionRecordedAtT }

/-- The recorded form of a consensus result. -/
def ConsensusResult.toDecision (r : ConsensusResult) (decisionId : String)
    (ledgerSeq : Option ℚ) : DecisionEvent where
  decisionId
  feedId := r.feedId
  atTime := r.atTime
  ledgerSeq
  outcome := r.outcome
  value := r.value
  triggered := r.triggered
  reason := r.reason
  policyVersion := r.policyVersion
  contributing := r.contributing

/-! ## A recorded decision is recomputed -/

/-- The summary of a decision holds finite numbers only, so it always has a text. -/
theorem summarise_ok (host : Host) (d : DecisionSummary) : ∃ text, summarise host d = .ok text := by
  have hnum : ∀ q : Option ℚ, (jsonNumber? q).Finite := by
    intro q
    cases q <;> simp [jsonNumber?, Json.Finite, JsNumber.isFinite, JsNumber.finite?]
  have hcont : FiniteItems (d.contributing.map contributingJson) := by
    rw [finiteItems_iff]
    intro item hitem
    obtain ⟨c, -, rfl⟩ := mem_map.1 hitem
    simp [contributingJson, Json.Finite, FiniteFields, JsNumber.isFinite, JsNumber.finite?]
  exact canonicalJson_ok host _ (by simp [Json.Finite, FiniteFields, hnum, hcont])

/-- Every contributor of a result is found among the readings it was computed from. -/
theorem contributingReadings_ok {host : Host} {input : ConsensusInput} {result : ConsensusResult}
    (h : computeConsensus host input = .ok result) :
    ∃ readings, collect (result.contributing.map (contributingReading input.readings)) =
      .ok readings := by
  refine collect_ok fun r hr => ?_
  obtain ⟨c, hc, rfl⟩ := mem_map.1 hr
  obtain ⟨reading, hreading, hid⟩ := computeConsensus_contributing h hc
  have hfind : (input.readings.reverse.find? fun r => r.readingId = c.readingId).isSome := by
    rw [find?_isSome]
    exact ⟨reading, mem_reverse.2 hreading, by simpa using hid⟩
  obtain ⟨found, hfound⟩ := Option.isSome_iff_exists.1 hfind
  exact ⟨_, by rw [contributingReading, hfound]⟩

/-- A decision recorded in the engine's own words agrees with the recomputation. -/
theorem consistencyAt_self (host : Host) (result : ConsensusResult) (decisionId : String)
    (ledgerSeq : Option ℚ) (seq : Nat) (recordedAt : ℚ) :
    consistencyAt host result.atTime result
      (some ⟨seq, recordedAt, result.toDecision decisionId ledgerSeq⟩) = .ok .matchesRecorded := by
  obtain ⟨text, htext⟩ := summarise_ok host result.summary
  have hsame : (result.toDecision decisionId ledgerSeq).summary = result.summary := rfl
  have hat : (result.toDecision decisionId ledgerSeq).atTime = result.atTime := rfl
  simp [consistencyAt, hat, hsame, htext]

theorem consensusInputAt_append_decision (host : Host) (events : List EvidenceEvent)
    (feedId : String) (t : ℚ) (seq : Nat) (recordedAt : ℚ) (d : DecisionEvent) :
    consensusInputAt host (events ++ [⟨seq, recordedAt, .decision d⟩]) feedId t =
      consensusInputAt host events feedId t := by
  simp only [consensusInputAt, policyAt_append_decision, sourcesAt_append_decision,
    readingsAt_append_decision, penaltiesAt_append_decision]

/-- A decision that is the engine's result on the ledger at its reserved timestamp `t`, appended
with decision and recording time `t`, is recomputed exactly by a reconstruction at `t` after any
further appends, up to the relabelled reason of a feed without sources; and the reconstruction
reports that it matches. -/
theorem reconstructConsensusState_at_reserved (host : Host) (ledger : EvidenceLedger)
    (feedId decisionId : String) (ledgerSeq : Option ℚ) (clock clock' : ℚ)
    (later : List (ℚ × NewEvidenceEvent)) (result : ConsensusResult)
    (hresult : computeConsensus host (consensusInputAt host ledger.events feedId
      (ledger.reserveTimestamp clock)) = .ok result)
    (hrange : |ledger.reserveTimestamp clock| ≤ maxTimeValue) :
    ∃ state, reconstructConsensusState host
        ((ledger.append clock' ⟨.decision (result.toDecision decisionId ledgerSeq),
          some (ledger.reserveTimestamp clock)⟩).appendAll later).events
        ⟨feedId, some (ledger.reserveTimestamp clock), none⟩ = .ok state ∧
      state.consistency = .matchesRecorded ∧
      state.decision =
        { result.summary with
          reason :=
            if sourcesAt host ledger.events feedId (ledger.reserveTimestamp clock) = [] ∧
                (policyAt ledger.events feedId (ledger.reserveTimestamp clock)).isSome then
              "no_sources_registered_at_t"
            else result.reason } := by
  obtain ⟨hfeed, hat⟩ := computeConsensus_about hresult
  have hknown := ledger.known_at_reserved clock clock'
    (.decision (result.toDecision decisionId ledgerSeq)) later
  set t := ledger.reserveTimestamp clock with ht
  have hforce : decisionInForceAt
      (ledger.log ++
        [⟨ledger.log.length + 1, t, .decision (result.toDecision decisionId ledgerSeq)⟩])
      feedId t = some ⟨ledger.log.length + 1, t, result.toDecision decisionId ledgerSeq⟩ :=
    decisionInForceAt_append_self (fun e he => Nat.lt_succ_of_le (ledger.seq_le_length he))
      hfeed hat
  have hconsistent := consistencyAt_self host result decisionId ledgerSeq (ledger.log.length + 1) t
  obtain ⟨iso, hiso⟩ := toISOString_of_abs_le hrange
  obtain ⟨readings, hreadings⟩ := contributingReadings_ok hresult
  have hatDecision : (result.toDecision decisionId ledgerSeq).atTime = t := hat
  have hatResult : result.atTime = t := hat
  rw [hatResult] at hconsistent
  simp only [events] at hresult hreadings
  simp only [reconstructConsensusState, reconstructAt, events, hknown, hforce,
    consensusInputAt_append_decision, recordedSummary, hatDecision, hconsistent, hiso, Except.map,
    exceptOk_bind, hresult, hreadings]
  exact ⟨_, rfl, rfl, rfl⟩

/-! ## Ledger queries -/

/-- Events without a ledger sequence do not move the time of a query. -/
theorem resolveLedger_append {visible added : List EvidenceEvent} {l : ℚ}
    (h : ∀ e ∈ added, e.data.ledgerSeq = none) :
    resolveLedger (visible ++ added) l = resolveLedger visible l := by
  unfold resolveLedger
  rw [foldl_append]
  refine foldlRecOn (motive := fun t => t = foldl _ none visible) added _ rfl ?_
  rintro t rfl e he
  rw [h e he]

/-- A query resolves to the recording time of an event that it sees. -/
theorem resolveLedger_mem {visible : List EvidenceEvent} {l t : ℚ}
    (h : resolveLedger visible l = some t) : ∃ e ∈ visible, e.recordedAt = t := by
  suffices hall : ∀ t ∈ resolveLedger visible l, ∃ e ∈ visible, e.recordedAt = t from hall t h
  refine foldlRecOn (motive := fun acc => ∀ t ∈ acc, ∃ e ∈ visible, e.recordedAt = t)
    visible _ (by simp) ?_
  intro acc hacc e he t ht
  split at ht
  · exact hacc t ht
  split at ht
  · cases acc with
    | none =>
      cases ht
      exact ⟨e, he, rfl⟩
    | some last =>
      have hmax : max last e.recordedAt = t := Option.some.inj ht
      rcases max_choice last e.recordedAt with hlast | hnew
      · exact hacc t (hlast.symm.trans hmax ▸ rfl)
      · exact ⟨e, he, hnew.symm.trans hmax⟩
  · exact hacc t ht

/-- The answer to a ledger query is not changed by appends, as long as none of them is stamped with
a sequence up to that of the query. -/
theorem reconstructConsensusState_at_ledger (host : Host) (ledger : EvidenceLedger)
    (feedId : String) (l : ℚ) (later : List (ℚ × NewEvidenceEvent))
    (hlater : ∀ call ∈ later, ∀ seq, call.2.body.ledgerSeq = some seq → l < seq) :
    reconstructConsensusState host (ledger.appendAll later).events ⟨feedId, none, some l⟩ =
      reconstructConsensusState host ledger.events ⟨feedId, none, some l⟩ := by
  obtain ⟨added, hlog, hdata, hadd⟩ := ledger.appendAll_log later
  have hvisible : visibleAtLedger (ledger.log ++ added) l =
      visibleAtLedger ledger.log l ++ visibleAtLedger added l := filter_append ..
  have hstamp : ∀ e ∈ visibleAtLedger added l, e.data.ledgerSeq = none := by
    intro e he
    obtain ⟨hmem, hle⟩ := mem_filter.1 he
    cases hseq : e.data.ledgerSeq with
    | none => rfl
    | some seq =>
      have hbody : e.data ∈ later.map (·.2.body) := hdata ▸ mem_map_of_mem hmem
      obtain ⟨call, hcall, hbody⟩ := mem_map.1 hbody
      rw [hseq] at hle
      exact absurd (of_decide_eq_true hle) (not_le.2 (hlater call hcall seq (hbody ▸ hseq)))
  simp only [reconstructConsensusState, events, hlog, hvisible,
    resolveLedger_append hstamp, exceptOk_bind]
  cases ht : resolveLedger (visibleAtLedger ledger.log l) l with
  | none => rfl
  | some t =>
    -- What is appended is recorded after the time of the query.
    obtain ⟨e, he, rfl⟩ := resolveLedger_mem ht
    have hnone : (visibleAtLedger added l).filter (fun b => b.recordedAt ≤ e.recordedAt) = [] := by
      refine filter_eq_nil_iff.2 fun b hb => ?_
      have hlt := hadd e (mem_filter.1 he).1 b (mem_filter.1 hb).1
      simpa using hlt
    simp only [reconstructAt, filter_append, hnone, append_nil]

/-! ## A feed with one source, and a feed with none -/

/-- A policy that needs one source and triggers below one hundred. -/
def ethPolicy : QuorumPolicyEvent where
  feedId := "eth"
  version := 1
  minSources := 1
  expectedSources := 1
  minTotalWeight := 1
  maxReadingAgeMs := 1000
  trigger := ⟨.lt, 100⟩
  effectiveFrom := 0

def ethSource : SourceVersionEvent where
  sourceId := "s1"
  providerId := "p1"
  feedId := "eth"
  version := 1
  status := .active
  weight := 2
  warmupUntil := none
  retentionDays := 30
  credentialRef := none
  declaredUpstream := none
  effectiveFrom := 0

def ethReading : ReadingEvent where
  readingId := "r1"
  feedId := "eth"
  sourceId := "s1"
  value := 90
  observedAt := 8
  ledgerSeq := none
  payloadHash := none
  signature := .pending
  fingerprint := none

/-- Three events under a clock that stands still and then goes backwards. -/
def ethLedger : EvidenceLedger :=
  EvidenceLedger.empty.appendAll [(10, ⟨.quorumPolicy ethPolicy, none⟩),
    (10, ⟨.sourceVersion ethSource, none⟩), (5, ⟨.reading ethReading, some 7⟩)]

/-- The engine's result on `ethLedger` at its next timestamp. -/
def ethResult : ConsensusResult where
  feedId := "eth"
  atTime := 13
  outcome := .decision
  value := some 90
  triggered := true
  reason := "triggered: 90 lt 100"
  policyVersion := some 1
  contributing := [⟨"r1", "s1", 90, 2, some true⟩]
  eligibility := [⟨"s1", 1, .active, true, none, false, 2, 2, some "r1", true, none⟩]

/-- The signature of the contributing reading fails after the decision; the reconstruction at the
decision time still recomputes the decision. -/
theorem ethLedger_reconstructed :
    ∃ state, reconstructConsensusState plainHost
        ((ethLedger.append 4 ⟨.decision (ethResult.toDecision "d1" none), some 13⟩).appendAll
          [(2, ⟨.signatureResult ⟨"r1", .failed⟩, some 1⟩)]).events
        ⟨"eth", some 13, none⟩ = .ok state ∧
      state.consistency = .matchesRecorded ∧ state.decision = ethResult.summary := by
  have hreserve : ethLedger.reserveTimestamp 4 = 13 := by decide +kernel
  have h := reconstructConsensusState_at_reserved plainHost ethLedger "eth" "d1" none 4 4
    [(2, ⟨.signatureResult ⟨"r1", .failed⟩, some 1⟩)] ethResult (by decide +kernel)
    (by decide +kernel)
  rw [hreserve] at h
  have hsources : sourcesAt plainHost ethLedger.events "eth" 13 ≠ [] := by decide +kernel
  simp only [hsources, false_and, if_false] at h
  exact h

/-- A reading under a ledger sequence. -/
def stampedReading (ledgerSeq : ℚ) : NewEvidenceEvent :=
  ⟨.reading { ethReading with ledgerSeq := some ledgerSeq }, none⟩

/-- The ledger has passed sequence 10. -/
def stampedLedger : EvidenceLedger :=
  ethLedger.appendAll [(20, stampedReading 10), (30, stampedReading 12)]

/-- An event without a sequence and one with a later sequence leave the answer alone. -/
theorem stampedLedger_reconstructed :
    reconstructConsensusState plainHost (stampedLedger.appendAll
        [(40, ⟨.signatureResult ⟨"r1", .failed⟩, none⟩), (50, stampedReading 11)]).events
        ⟨"eth", none, some 10⟩ =
      reconstructConsensusState plainHost stampedLedger.events ⟨"eth", none, some 10⟩ :=
  reconstructConsensusState_at_ledger _ _ _ _ _ (by decide +kernel)

/-- An event that is appended late with an earlier sequence moves the time of the query. -/
theorem stampedLedger_moved :
    (∃ e ∈ stampedLedger.events, ∃ seq, e.data.ledgerSeq = some seq ∧ 10 < seq) ∧
    (reconstructConsensusState plainHost stampedLedger.events ⟨"eth", none, some 10⟩).map
        (·.resolvedAt) = .ok (some 20) ∧
    (reconstructConsensusState plainHost (stampedLedger.append 40 (stampedReading 9)).events
        ⟨"eth", none, some 10⟩).map (·.resolvedAt) = .ok (some 40) := by
  refine ⟨⟨stamp (ethLedger.append 20 (stampedReading 10)).log 30 (stampedReading 12), ?_, 12,
    rfl, by norm_num⟩, ?_, ?_⟩
  · exact mem_append_right _ (mem_singleton.2 rfl)
  · decide +kernel
  · decide +kernel

/-- The engine's result at `atTime` on a feed with the policy and no source. -/
def unsourcedResult (atTime : ℚ) : ConsensusResult where
  feedId := "eth"
  atTime
  outcome := .noDecision
  value := none
  triggered := false
  reason := "quorum_not_met: 0 independent eligible source(s), policy requires 1"
  policyVersion := some 1
  contributing := []
  eligibility := []

def unsourcedLedger : EvidenceLedger :=
  EvidenceLedger.empty.append 10 ⟨.quorumPolicy ethPolicy, none⟩

/-- What comes back is not always the recorded decision: without sources the reason is another
one, and at a timestamp no `Date` can hold the reconstruction throws. -/
theorem unsourcedLedger_reconstructed :
    (unsourcedLedger.reserveTimestamp 12 = 12 ∧
      computeConsensus plainHost (consensusInputAt plainHost unsourcedLedger.events "eth" 12) =
        .ok (unsourcedResult 12) ∧
      (reconstructConsensusState plainHost
          (unsourcedLedger.append 12 ⟨.decision ((unsourcedResult 12).toDecision "d1" none),
            some 12⟩).events ⟨"eth", some 12, none⟩).map (·.decision.reason) =
        .ok "no_sources_registered_at_t" ∧
      (unsourcedResult 12).reason ≠ "no_sources_registered_at_t") ∧
    (unsourcedLedger.reserveTimestamp 8640000000000001 = 8640000000000001 ∧
      computeConsensus plainHost (consensusInputAt plainHost unsourcedLedger.events "eth"
        8640000000000001) = .ok (unsourcedResult 8640000000000001) ∧
      reconstructConsensusState plainHost
          (unsourcedLedger.append 0
            ⟨.decision ((unsourcedResult 8640000000000001).toDecision "d1" none),
              some 8640000000000001⟩).events ⟨"eth", some 8640000000000001, none⟩ =
        .error (.rangeError "Invalid time value")) := by
  refine ⟨⟨?_, ?_, ?_, ?_⟩, ?_, ?_, ?_⟩ <;> decide +kernel

end Refract.Consensus
