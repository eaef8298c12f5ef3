import Refract.Consensus.EvidenceLedger
import Refract.Lib.OrdMap

/-!
# Version-aware lookups over ledger events

The functions of `ledger-view.ts`. Each is a left fold over the log; the body of the loop is a
definition of its own (`policyStep`, `sourceStep`, ...), so that what one event can change is said
once. Every lookup takes a knowledge cutoff `t`; where the source is also called with infinity the
cutoff is an `Option`, `none` standing for infinity.
-/

namespace Refract.Consensus

open Lib List

/-- `x ≤ t`, where `none` is infinity. -/
def notAfter (x : ℚ) : Option ℚ → Bool
  | none => true
  | some t => decide (x ≤ t)

/-! ## Versioned rows -/

/-- Keep the row with the highest version; of equal versions the one recorded first. -/
def newerVersion {α : Type} (version : α → ℚ) (found : Option (Stamped α)) (e : Stamped α) :
    Option (Stamped α) :=
  match found with
  | none => some e
  | some prev => if version prev.data < version e.data then some e else found

/-- One iteration of `sourceVersionAt`. -/
def sourceVersionStep (sourceId : String) (t : Option ℚ)
    (found : Option (Stamped SourceVersionEvent)) (e : EvidenceEvent) :
    Option (Stamped SourceVersionEvent) :=
  match e.data with
  | .sourceVersion v =>
    if v.sourceId = sourceId ∧ notAfter e.recordedAt t ∧ notAfter v.effectiveFrom t then
      newerVersion (·.version) found ⟨e.seq, e.recordedAt, v⟩
    else found
  | _ => found

/-- Latest version of a source regardless of feed, as known at `t`. -/
def sourceVersionAt (events : List EvidenceEvent) (sourceId : String) (t : Option ℚ) :
    Option (Stamped SourceVersionEvent) :=
  events.foldl (sourceVersionStep sourceId t) none

/-- One iteration of `policyAt`. -/
def policyStep (feedId : String) (t : ℚ) (found : Option (Stamped QuorumPolicyEvent))
    (e : EvidenceEvent) : Option (Stamped QuorumPolicyEvent) :=
  match e.data with
  | .quorumPolicy p =>
    if p.feedId = feedId ∧ e.recordedAt ≤ t ∧ p.effectiveFrom ≤ t then
      newerVersion (·.version) found ⟨e.seq, e.recordedAt, p⟩
    else found
  | _ => found

/-- The quorum policy of a feed in force at `t`. -/
def policyAt (events : List EvidenceEvent) (feedId : String) (t : ℚ) :
    Option (Stamped QuorumPolicyEvent) :=
  events.foldl (policyStep feedId t) none

/-- Highest version number ever recorded for a source. -/
def latestSourceVersionNumber (events : List EvidenceEvent) (sourceId : String) : ℚ :=
  events.foldl (fun best e => match e.data with
    | .sourceVersion v => if v.sourceId = sourceId then max best v.version else best
    | _ => best) 0

/-! ## Sources of a feed -/

/-- A source as a lookup returns it; `status` is the status after warm-up. -/
structure SourceState where
  sourceId : String
  providerId : String
  feedId : String
  version : ℚ
  status : SourceStatus
  weight : ℚ
  retentionDays : ℚ
  credentialRef : Option String
  declaredUpstream : Option String
  effectiveFrom : ℚ
  deriving DecidableEq, Repr

/-- One iteration of `sourcesAt`. -/
def sourceStep (feedId : String) (t : ℚ) (latest : OrdMap String SourceVersionEvent)
    (e : EvidenceEvent) : OrdMap String SourceVersionEvent :=
  match e.data with
  | .sourceVersion v =>
    if v.feedId = feedId ∧ e.recordedAt ≤ t ∧ v.effectiveFrom ≤ t then
      match latest.get? v.sourceId with
      | none => latest.set v.sourceId v
      | some prev => if prev.version < v.version then latest.set v.sourceId v else latest
    else latest
  | _ => latest

/-- The status of a source version once warm-up is applied at `t`. -/
def effectiveStatus (v : SourceVersionEvent) (t : ℚ) : SourceStatus :=
  match v.status, v.warmupUntil with
  | .active, some w => if t < w then .warmup else .active
  | status, _ => status

def toSourceState (t : ℚ) (v : SourceVersionEvent) : SourceState where
  sourceId := v.sourceId
  providerId := v.providerId
  feedId := v.feedId
  version := v.version
  status := effectiveStatus v t
  weight := v.weight
  retentionDays := v.retentionDays
  credentialRef := v.credentialRef
  declaredUpstream := v.declaredUpstream
  effectiveFrom := v.effectiveFrom

/-- Latest effective version of every source on `feedId`, sorted by source id. -/
def sourcesAt (host : Host) (events : List EvidenceEvent) (feedId : String) (t : ℚ) :
    List SourceState :=
  sortBy (fun a b => host.localeCompare a.sourceId b.sourceId)
    ((events.foldl (sourceStep feedId t) OrdMap.empty).values.map (toSourceState t))

/-! ## Readings -/

/-- A reading as a lookup returns it; `signature` is the status after late results. -/
structure ReadingState where
  readingId : String
  feedId : String
  sourceId : String
  value : ℚ
  observedAt : ℚ
  ledgerSeq : Option ℚ
  payloadHash : Option String
  signature : SignatureStatus
  seq : Nat
  deriving DecidableEq, Repr

/-- One iteration of `signatureResultsAt`. -/
def signatureStep (t : ℚ) (m : OrdMap String SignatureResult) (e : EvidenceEvent) :
    OrdMap String SignatureResult :=
  match e.data with
  | .signatureResult r => if e.recordedAt ≤ t then m.set r.readingId r.result else m
  | _ => m

/-- The last verification result of every reading, as known at `t`. -/
def signatureResultsAt (events : List EvidenceEvent) (t : ℚ) : OrdMap String SignatureResult :=
  events.foldl (signatureStep t) OrdMap.empty

/-- A late result replaces only a pending status. -/
def overrideSignature (signature : SignatureStatus) (result : Option SignatureResult) :
    SignatureStatus :=
  match signature, result with
  | .pending, some r => r.toStatus
  | s, _ => s

def toReadingState (e : Stamped ReadingEvent) (result : Option SignatureResult) :
    ReadingState where
  readingId := e.data.readingId
  feedId := e.data.feedId
  sourceId := e.data.sourceId
  value := e.data.value
  observedAt := e.data.observedAt
  ledgerSeq := e.data.ledgerSeq
  payloadHash := e.data.payloadHash
  signature := overrideSignature e.data.signature result
  seq := e.seq

/-- The reading an event contributes to `readingsAt`. -/
def readingOf (sig : OrdMap String SignatureResult) (feedId : String) (t : ℚ)
    (e : EvidenceEvent) : Option ReadingState :=
  match e.data with
  | .reading r =>
    if r.feedId = feedId ∧ e.recordedAt ≤ t ∧ r.observedAt ≤ t then
      some (toReadingState ⟨e.seq, e.recordedAt, r⟩ (sig.get? r.readingId))
    else none
  | _ => none

/-- Readings on `feedId` observed up to `t`, with signature status as known at `t`. Every caller
in the source leaves the lower bound at its default, minus infinity. -/
def readingsAt (events : List EvidenceEvent) (feedId : String) (t : ℚ) : List ReadingState :=
  events.filterMap (readingOf (signatureResultsAt events t) feedId t)

/-- The event `readingById` stops at. -/
def readingEvent? (readingId : String) (t : ℚ) (e : EvidenceEvent) :
    Option (Stamped ReadingEvent) :=
  match e.data with
  | .reading r =>
    if r.readingId = readingId ∧ e.recordedAt ≤ t then some ⟨e.seq, e.recordedAt, r⟩ else none
  | _ => none

/-- The first reading recorded under an id, with signature status as known at `t`. -/
def readingById (events : List EvidenceEvent) (readingId : String) (t : ℚ) :
    Option ReadingState :=
  (events.findSome? (readingEvent? readingId t)).map fun r =>
    toReadingState r ((signatureResultsAt events t).get? r.data.readingId)

/-! ## Decisions and penalties -/

/-- One iteration of `decisionInForceAt`. -/
def decisionStep (feedId : String) (t : ℚ) (found : Option (Stamped DecisionEvent))
    (e : EvidenceEvent) : Option (Stamped DecisionEvent) :=
  match e.data with
  | .decision d =>
    if d.feedId = feedId ∧ e.recordedAt ≤ t ∧ d.atTime ≤ t then
      match found with
      | none => some ⟨e.seq, e.recordedAt, d⟩
      | some prev =>
        if prev.data.atTime < d.atTime ∨ d.atTime = prev.data.atTime ∧ prev.seq < e.seq then
          some ⟨e.seq, e.recordedAt, d⟩
        else found
    else found
  | _ => found

/-- Most recent recorded decision for a feed with decision time at most `t`. -/
def decisionInForceAt (events : List EvidenceEvent) (feedId : String) (t : ℚ) :
    Option (Stamped DecisionEvent) :=
  events.foldl (decisionStep feedId t) none

/-- The decision an event carries, if it has the given id. -/
def decisionEvent? (decisionId : String) (e : EvidenceEvent) : Option (Stamped DecisionEvent) :=
  match e.data with
  | .decision d => if d.decisionId = decisionId then some ⟨e.seq, e.recordedAt, d⟩ else none
  | _ => none

/-- The first decision recorded under an id. -/
def decisionById (events : List EvidenceEvent) (decisionId : String) :
    Option (Stamped DecisionEvent) :=
  events.findSome? (decisionEvent? decisionId)

variable {events : List EvidenceEvent} {decisionId : String} {e : Stamped DecisionEvent}

theorem decisionById_append (h : decisionById events decisionId = some e)
    (added : List EvidenceEvent) : decisionById (events ++ added) decisionId = some e := by
  unfold decisionById at h ⊢
  rw [findSome?_append, h]
  rfl

variable {d : DecisionEvent}

/-- A decision recorded under a new id is the one found under it. -/
theorem decisionById_append_self (hnew : decisionById events d.decisionId = none) (seq : Nat)
    (recordedAt : ℚ) :
    decisionById (events ++ [⟨seq, recordedAt, .decision d⟩]) d.decisionId =
      some ⟨seq, recordedAt, d⟩ := by
  unfold decisionById at hnew ⊢
  rw [findSome?_append, hnew]
  simp [decisionEvent?]

theorem decisionId_of_decisionById (h : decisionById events decisionId = some e) :
    e.data.decisionId = decisionId := by
  obtain ⟨event, -, hevent⟩ := exists_of_findSome?_eq_some h
  unfold decisionEvent? at hevent
  split at hevent
  · obtain ⟨hid, ⟨⟩⟩ := Option.ite_none_right_eq_some.1 hevent
    exact hid
  · cases hevent

/-- One iteration of `penaltiesAt`. -/
def penaltyStep (feedId : String) (t : ℚ)
    (active : OrdMap String (Stamped IndependencePenaltyEvent)) (e : EvidenceEvent) :
    OrdMap String (Stamped IndependencePenaltyEvent) :=
  match e.data with
  | .independencePenalty p =>
    if e.recordedAt ≤ t ∧ p.feedId = feedId then
      active.set p.penaltyId ⟨e.seq, e.recordedAt, p⟩
    else active
  | .independencePenaltyCleared p =>
    if e.recordedAt ≤ t ∧ p.feedId = feedId then active.delete p.penaltyId else active
  | _ => active

/-- Mirror penalties on a feed that were recorded, and not cleared, by `t`. -/
def penaltiesAt (events : List EvidenceEvent) (feedId : String) (t : ℚ) :
    List (Stamped IndependencePenaltyEvent) :=
  sortBy (fun a b => compare a.seq b.seq)
    (events.foldl (penaltyStep feedId t) OrdMap.empty).values

/-! ## A decision event changes no lookup but the decision in force -/

section AppendDecision

variable (host : Host) (events : List EvidenceEvent) (feedId : String) (t : ℚ)
  (seq : Nat) (recordedAt : ℚ) (d : DecisionEvent)

theorem policyAt_append_decision :
    policyAt (events ++ [⟨seq, recordedAt, .decision d⟩]) feedId t = policyAt events feedId t := by
  simp [policyAt, foldl_append, policyStep]

theorem sourcesAt_append_decision :
    sourcesAt host (events ++ [⟨seq, recordedAt, .decision d⟩]) feedId t =
      sourcesAt host events feedId t := by
  simp [sourcesAt, foldl_append, sourceStep]

theorem readingsAt_append_decision :
    readingsAt (events ++ [⟨seq, recordedAt, .decision d⟩]) feedId t =
      readingsAt events feedId t := by
  simp [readingsAt, signatureResultsAt, foldl_append, signatureStep, readingOf]

theorem penaltiesAt_append_decision :
    penaltiesAt (events ++ [⟨seq, recordedAt, .decision d⟩]) feedId t =
      penaltiesAt events feedId t := by
  simp [penaltiesAt, foldl_append, penaltyStep]

end AppendDecision

/-! ## The decision in force -/

/-- What one event can do to the decision in force: nothing, or replace it by itself. -/
theorem decisionStep_cases (feedId : String) (t : ℚ) (found : Option (Stamped DecisionEvent))
    (e : EvidenceEvent) :
    decisionStep feedId t found e = found ∨
      ∃ d, e.data = .decision d ∧ d.feedId = feedId ∧ e.recordedAt ≤ t ∧ d.atTime ≤ t ∧
        decisionStep feedId t found e = some ⟨e.seq, e.recordedAt, d⟩ := by
  unfold decisionStep
  split
  · rename_i d hd
    split
    · rename_i hguard
      cases found with
      | none => exact .inr ⟨d, hd, hguard.1, hguard.2.1, hguard.2.2, rfl⟩
      | some =>
        dsimp only
        split
        · exact .inr ⟨d, hd, hguard.1, hguard.2.1, hguard.2.2, rfl⟩
        · exact .inl rfl
    · exact .inl rfl
  · exact .inl rfl

variable {feedId : String} {t : ℚ}

/-- The decision in force is one of the recorded events, not after `t`. -/
theorem decisionInForceAt_eq_some {d : Stamped DecisionEvent}
    (h : decisionInForceAt events feedId t = some d) :
    ⟨d.seq, d.recordedAt, .decision d.data⟩ ∈ events ∧ d.data.atTime ≤ t := by
  induction events using List.reverseRecOn generalizing d with
  | nil => simp [decisionInForceAt] at h
  | append_singleton events e ih =>
    have hfold : decisionInForceAt (events ++ [e]) feedId t =
        decisionStep feedId t (decisionInForceAt events feedId t) e := by
      simp [decisionInForceAt, foldl_append]
    rw [hfold] at h
    rcases decisionStep_cases feedId t (decisionInForceAt events feedId t) e with
      hsame | ⟨d', hdata, -, -, hat, hset⟩
    · rw [hsame] at h
      obtain ⟨hmem, hrest⟩ := ih h
      exact ⟨mem_append_left _ hmem, hrest⟩
    · rw [hset, Option.some.injEq] at h
      subst h
      refine ⟨mem_append_right _ ?_, hat⟩
      rw [mem_singleton, ← hdata]

/-- A decision recorded last, at its own decision time, is the one in force then. -/
theorem decisionInForceAt_append_self {seq : Nat} (hseq : ∀ e ∈ events, e.seq < seq)
    (hfeed : d.feedId = feedId) (hat : d.atTime = t) :
    decisionInForceAt (events ++ [⟨seq, t, .decision d⟩]) feedId t = some ⟨seq, t, d⟩ := by
  have hfold : decisionInForceAt (events ++ [⟨seq, t, .decision d⟩]) feedId t =
      decisionStep feedId t (decisionInForceAt events feedId t) ⟨seq, t, .decision d⟩ := by
    simp [decisionInForceAt, foldl_append]
  rw [hfold]
  cases hforce : decisionInForceAt events feedId t with
  | none => simp [decisionStep, hfeed, hat]
  | some prev =>
    -- An earlier decision taken at the same instant has a smaller position.
    obtain ⟨hmem, hprev⟩ := decisionInForceAt_eq_some hforce
    have hlater : prev.data.atTime < t ∨ t = prev.data.atTime ∧ prev.seq < seq := by
      rcases lt_or_eq_of_le hprev with hlt | heq
      · exact .inl hlt
      · exact .inr ⟨heq.symm, hseq _ hmem⟩
    simp [decisionStep, hfeed, hat, hlater]

end Refract.Consensus
