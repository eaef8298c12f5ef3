import Refract.Consensus.ClaimHoldSafety
import Refract.Consensus.Reconstruction

/-!
# What a release stands on

`reevaluateAll` releases a hold on a decision whose assessment has no gaps. For a ledger reached by
the service this means a triggered decision with enough independent contributors, none of them in
warm-up, whose payloads are in the store (`released_on_complete_evidence`). It does not mean
verified signatures: a result that fails closes the gap of a pending signature as one that verifies
does, and the original decision still counts the reading that the engine no longer would
(`released_on_failed_signature`).
-/

namespace Refract.Consensus

open Lib List Option

/-! ## Readings after all recorded results -/

/-- The reading recorded under an id, with every recorded verification result applied. -/
def recordedReading (events : List EvidenceEvent) (readingId : String) : Option ReadingState :=
  readingById events readingId ((lastRecordedAt events).getD 0)

variable {events : List EvidenceEvent} {t : ℚ}

/-- Cutoffs that no event is recorded after give the same reading. -/
theorem readingById_of_forall_le {t' : ℚ} (h : ∀ e ∈ events, e.recordedAt ≤ t)
    (h' : ∀ e ∈ events, e.recordedAt ≤ t') (readingId : String) :
    readingById events readingId t = readingById events readingId t' := by
  have hsigs : signatureResultsAt events t = signatureResultsAt events t' := by
    refine foldl_ext _ _ _ ?_
    intro m e he
    simp only [signatureStep, h e he, h' e he]
  have hfind : events.findSome? (readingEvent? readingId t) =
      events.findSome? (readingEvent? readingId t') := by
    rw [← head?_filterMap, ← head?_filterMap]
    refine congrArg List.head? (filterMap_congr ?_)
    intro e he
    simp only [readingEvent?, h e he, h' e he]
  unfold readingById
  rw [hsigs, hfind]

theorem readingById_of_ledger (ledger : EvidenceLedger) (h : ∀ e ∈ ledger.events, e.recordedAt ≤ t)
    (readingId : String) :
    readingById ledger.events readingId t = recordedReading ledger.events readingId := by
  refine readingById_of_forall_le h ?_ readingId
  intro e he
  cases hlast : lastRecordedAt ledger.log with
  | none =>
    have hnil : ledger.events = [] := getLast?_eq_none_iff.1 (map_eq_none_iff.1 hlast)
    rw [hnil] at he
    cases he
  | some r =>
    have hnow := ledger.recordedAt_le_now r he
    simpa [EvidenceLedger.now, EvidenceLedger.events, hlast] using hnow

theorem readingById_append_decision (events : List EvidenceEvent) (readingId : String) (t : ℚ)
    (seq : Nat) (recordedAt : ℚ) (d : DecisionEvent) :
    readingById (events ++ [⟨seq, recordedAt, .decision d⟩]) readingId t =
      readingById events readingId t := by
  simp [readingById, signatureResultsAt, foldl_append, signatureStep, readingEvent?]

/-- A decision changes no reading. -/
theorem recordedReading_decision {env : HoldEnv} (s : EvidenceState) (a : DecideAnswer)
    (readingId : String) :
    recordedReading (s.appendEvent env ⟨.decision a.decision, a.recordedAt⟩).events readingId =
      recordedReading s.events readingId := by
  -- Both readings are the ones at the time of the longer ledger.
  generalize hgrown : s.appendEvent env ⟨.decision a.decision, a.recordedAt⟩ = grown
  have hle : ∀ e ∈ grown.ledger.events, e.recordedAt ≤ grown.ledger.now 0 :=
    fun e he => grown.ledger.recordedAt_le_now 0 he
  have hold : ∀ e ∈ s.ledger.events, e.recordedAt ≤ grown.ledger.now 0 := by
    intro e he
    refine hle e ?_
    rw [← hgrown]
    exact mem_append_left _ he
  unfold EvidenceState.events
  rw [← readingById_of_ledger grown.ledger hle, ← readingById_of_ledger s.ledger hold, ← hgrown]
  exact readingById_append_decision _ _ _ _ _ _

/-! ## What one look at a hold appends -/

/-- The effect of trying the decisions of a list on a hold: no release, or a release on a decision
of the list that has no gaps. -/
inductive LookEffect (env : HoldEnv) (s : EvidenceState) (decisions : List DecisionEvent)
    (s' : EvidenceState) : Prop
  | unreleased (added : List EvidenceEvent) (hevents : s'.events = s.events ++ added)
      (hquiet : ∀ e ∈ added, ∀ r, e.data ≠ .holdReleased r)
  | released (d : DecisionEvent) (clock : ℚ) (e after : EvidenceEvent) (r : HoldReleasedEvent)
      (hmem : d ∈ decisions)
      (hassess : assessEvidenceCompleteness env.host s.events d (s.ledger.now clock) s.payloads =
        .ok [])
      (hevents : s'.events = s.events ++ [e, after]) (hdata : e.data = .holdReleased r)
      (hnamed : r.decisionId = d.decisionId) (hafter : ∀ r, after.data ≠ .holdReleased r)

variable {env : HoldEnv} {s s' : EvidenceState} {decisions : List DecisionEvent}

/-- A decision that was tried before and released nothing. -/
theorem LookEffect.cons (h : LookEffect env s.tick decisions s') (d : DecisionEvent) :
    LookEffect env s (d :: decisions) s' := by
  cases h with
  | unreleased added hevs hquiet => exact .unreleased added hevs hquiet
  | released d' clock e after r hmem hassess hevs hdata hnamed hafter =>
    exact .released d' clock e after r (mem_cons_of_mem _ hmem) hassess hevs hdata hnamed hafter

theorem keepHeld_look (s : EvidenceState) (hold : ClaimHold)
    (best : Option (List EvidenceGap × String)) :
    LookEffect env s [] (keepHeld env s hold best) := by
  unfold keepHeld
  dsimp only
  split
  · exact .unreleased [] (by simp) (by simp)
  · refine .unreleased _ rfl ?_
    intro e he r hr
    rw [mem_singleton.1 he] at hr
    cases hr

theorem tryCandidates_look (hold : ClaimHold) (decisions : List DecisionEvent) (s : EvidenceState)
    (best : Option (List EvidenceGap × String)) :
    LookEffect env s decisions (tryCandidates env hold s decisions best).1 := by
  induction decisions generalizing s best with
  | nil => exact keepHeld_look s hold best
  | cons d _ ih =>
    rw [tryCandidates, assess_eq]
    rcases hassess : (assess env s d).2 with _ | (_ | _)
    · exact .unreleased [] (by simp [EvidenceState.events, EvidenceState.tick]) (by simp)
    · refine .released d (env.clock s.ticks) _ _ _ mem_cons_self hassess
        (append_assoc _ _ _) rfl rfl ?_
      intro r hr
      cases hr
    · exact (ih s.tick _).cons d

theorem escalate_look (s : EvidenceState) (hold : ClaimHold) (escalation : HoldEscalationReason)
    (reason : String) (decisions : List DecisionEvent) :
    LookEffect env s decisions (escalate env s hold escalation reason) := by
  refine .unreleased _ (append_assoc _ _ _) ?_
  intro e he r hr
  rcases mem_snoc.1 he with he | rfl
  · rw [mem_singleton.1 he] at hr
    cases hr
  · cases hr

/-- The decisions a hold may be released on, when the fresh one does not contradict it. -/
def releasable (events : List EvidenceEvent) (hold : ClaimHold) (fresh : DecisionEvent) :
    List DecisionEvent :=
  if fresh.outcome = .decision ∧ fresh.triggered = false then [] else candidates events hold fresh

theorem reevaluateFresh_look (s : EvidenceState) (hold : ClaimHold) (fresh : DecisionEvent) :
    LookEffect env s (releasable s.events hold fresh) (reevaluateFresh env s hold fresh).1 := by
  unfold reevaluateFresh releasable
  split
  · exact escalate_look s hold _ _ _
  · exact tryCandidates_look hold _ s none

variable {mid post : List EvidenceEvent} {e : EvidenceEvent} {r : HoldReleasedEvent}

/-- Where a release stands among the events of one look, and what it stands on. -/
theorem LookEffect.of_release (h : LookEffect env s decisions s')
    (hevs : s'.events = s.events ++ mid ++ e :: post) (hdata : e.data = .holdReleased r) :
    mid = [] ∧ ∃ d clock, d ∈ decisions ∧ r.decisionId = d.decisionId ∧
      assessEvidenceCompleteness env.host s.events d (s.ledger.now clock) s.payloads = .ok [] := by
  rw [append_assoc] at hevs
  cases h with
  | unreleased _ hadd hquiet =>
    have hsame := append_cancel_left (hadd.symm.trans hevs)
    exact absurd hdata (hquiet e (by rw [hsame]; simp) r)
  | released d clock _ after _ hmem hassess hadd hdata' hnamed hafter =>
    have hsame := append_cancel_left (hadd.symm.trans hevs)
    cases mid with
    | nil =>
      obtain ⟨rfl, -⟩ := List.cons.inj hsame
      rw [hdata, EventBody.holdReleased.injEq] at hdata'
      rw [hdata']
      exact ⟨rfl, d, clock, hmem, hnamed, hassess⟩
    | cons _ mid =>
      -- The release would have to be the audit event after it.
      cases mid with
      | nil =>
        obtain ⟨rfl, -⟩ := List.cons.inj (List.cons.inj hsame).2
        exact absurd hdata (hafter r)
      | cons => simp at hsame

/-- A release after one more event that is none stands after that event. -/
theorem LookEffect.of_append {t : EvidenceState} (h : LookEffect env t decisions s')
    {first : EvidenceEvent} (ht : t.events = s.events ++ [first])
    (hevs : s'.events = s.events ++ mid ++ e :: post) (hne : e ≠ first) :
    ∃ rest, mid = first :: rest ∧ s'.events = t.events ++ rest ++ e :: post := by
  have hadd : ∃ added, s'.events = t.events ++ added := by
    cases h with
    | unreleased added hadd => exact ⟨added, hadd⟩
    | released _ _ _ _ _ _ _ hadd => exact ⟨_, hadd⟩
  obtain ⟨added, hadd⟩ := hadd
  have hsame : first :: added = mid ++ e :: post := by
    refine (append_right_inj s.events).1 ?_
    rw [← append_assoc, ← hevs, hadd, ht]
    simp
  cases mid with
  | nil => exact absurd (List.cons.inj hsame).1.symm hne
  | cons _ rest =>
    obtain ⟨rfl, rfl⟩ := List.cons.inj hsame
    exact ⟨rest, rfl, hadd.trans (append_assoc _ _ _).symm⟩

/-- The decision `reevaluate` takes as the fresh one: the remembered one, or the new one. -/
def freshDecision (hold : ClaimHold) (freshByFeed : OrdMap String DecisionEvent)
    (answer : Except JsError DecideAnswer) : Option DecisionEvent :=
  match freshByFeed.get? hold.feedId, answer with
  | some fresh, _ => some fresh
  | none, .ok a => some a.decision
  | none, .error _ => none

variable {hold : ClaimHold} {answer : Except JsError DecideAnswer}

/-- A release stands on a releasable decision without gaps, in the ledger as it is right before the
release: with the new decision, if one was asked for. -/
theorem reevaluate_release {freshByFeed : OrdMap String DecisionEvent}
    (hevs : (reevaluate env s hold freshByFeed answer).1.events =
      s.events ++ mid ++ e :: post) (hdata : e.data = .holdReleased r) :
    ∃ t fresh d clock, t.events = s.events ++ mid ∧ t.payloads = s.payloads ∧
      freshDecision hold freshByFeed answer = some fresh ∧ d ∈ releasable t.events hold fresh ∧
      r.decisionId = d.decisionId ∧
      assessEvidenceCompleteness env.host t.events d (t.ledger.now clock) t.payloads = .ok [] ∧
      (freshByFeed.get? hold.feedId = some fresh ∧ t = s.tick ∨
        ∃ a, answer = .ok a ∧ fresh = a.decision ∧
          t = s.tick.appendEvent env ⟨.decision a.decision, a.recordedAt⟩) := by
  have hescalated : ∀ escalation reason, (escalate env s.tick hold escalation reason).events =
      s.events ++ mid ++ e :: post → False := by
    intro escalation reason hgrown
    obtain ⟨-, d, -, hmem, -⟩ := (escalate_look s.tick hold escalation reason []).of_release
      hgrown hdata
    cases hmem
  unfold reevaluate at hevs
  dsimp only at hevs
  split at hevs
  · exact (hescalated _ _ hevs).elim
  split at hevs
  · exact (hescalated _ _ hevs).elim
  split at hevs
  · rename_i fresh hfresh
    obtain ⟨rfl, d, clock, hmem, hnamed, hassess⟩ :=
      (reevaluateFresh_look s.tick hold fresh).of_release hevs hdata
    refine ⟨s.tick, fresh, d, clock, (append_nil _).symm, rfl, ?_, hmem, hnamed, hassess,
      .inl ⟨hfresh, rfl⟩⟩
    simp [freshDecision, hfresh]
  rename_i hfresh
  cases answer with
  | error =>
    have hnil := append_cancel_left ((append_nil s.events).trans (hevs.trans (append_assoc _ _ _)))
    simp at hnil
  | ok a =>
    have hlook : LookEffect env _ _ _ := reevaluateFresh_look
      (s.tick.appendEvent env ⟨.decision a.decision, a.recordedAt⟩) hold a.decision
    obtain ⟨rest, hmid, hgrown⟩ := hlook.of_append (s := s) rfl hevs (by
      rintro rfl
      cases hdata)
    obtain ⟨rfl, d, clock, hmem, hnamed, hassess⟩ := hlook.of_release hgrown hdata
    refine ⟨s.tick.appendEvent env ⟨.decision a.decision, a.recordedAt⟩, a.decision, d, clock,
      ?_, rfl, ?_, hmem, hnamed, hassess, .inr ⟨a, rfl, rfl, rfl⟩⟩
    · rw [hmid]
      rfl
    · simp [freshDecision, hfresh]

/-! ## What a release requires -/

/-- No reading behind the decision has failed verification. -/
def NoneFailed (events : List EvidenceEvent) (d : DecisionEvent) : Prop :=
  ∀ c ∈ d.contributing, (recordedReading events c.readingId).map (·.signature) ≠ some .failed

instance (events : List EvidenceEvent) (d : DecisionEvent) : Decidable (NoneFailed events d) :=
  inferInstanceAs (Decidable (∀ c ∈ d.contributing, _))

/-- The evidence a payout on a decision requires. -/
structure CompleteEvidence (host : Host) (events : List EvidenceEvent) (payloads : PayloadStore)
    (d : DecisionEvent) : Prop where
  triggered : d.outcome = .decision ∧ d.triggered = true
  independent : expectedSources events d ≤ independentCount d
  warmedUp : ∀ c ∈ d.contributing, statusAtDecision host events d c.sourceId ≠ some .warmup
  readings : ∀ c ∈ d.contributing, ∃ reading hash,
    recordedReading events c.readingId = some reading ∧ reading.payloadHash = some hash ∧
      hash ∈ payloads.held ∧ (reading.signature = .verified ∨ reading.signature = .notRequired)

variable {d : DecisionEvent}

/-- An assessment without gaps establishes all of it but that no signature has failed. -/
theorem completeEvidence_of_assess {host : Host} {ledger : EvidenceLedger} {clock : ℚ}
    {payloads : PayloadStore}
    (hassess : assessEvidenceCompleteness host ledger.events d (ledger.now clock) payloads = .ok [])
    (htrig : d.outcome = .decision ∧ d.triggered = true)
    (hver : NoneFailed ledger.events d) : CompleteEvidence host ledger.events payloads d := by
  obtain ⟨hsrcs, hconts⟩ := assess_complete hassess
  refine ⟨htrig, hsrcs, fun c hc => (hconts c hc).1, ?_⟩
  intro c hc
  obtain ⟨reading, hash, hreading, hhash, hheld, hpend⟩ := (hconts c hc).2
  rw [readingById_of_ledger ledger (fun e he => ledger.recordedAt_le_now clock he)] at hreading
  have hfailed := hver c hc
  rw [hreading, map_some] at hfailed
  refine ⟨reading, hash, hreading, hhash, hheld, ?_⟩
  cases hsig : reading.signature with
  | verified => exact .inl rfl
  | notRequired => exact .inr rfl
  | pending => exact absurd hsig hpend
  | failed => exact absurd (congrArg some hsig) hfailed

variable {fresh : DecisionEvent}

theorem mem_releasable (h : d ∈ releasable events hold fresh) :
    (d = fresh ∧ d.outcome = .decision ∧ d.triggered = true) ∨
      (decisionById events hold.decisionId).map (·.data) = some d := by
  unfold releasable at h
  split at h
  · cases h
  rename_i hverd
  rcases mem_append.1 h with hfresh | horig
  · split at hfresh
    · rename_i hout
      obtain rfl := mem_singleton.1 hfresh
      exact .inl ⟨rfl, hout, eq_true_of_ne_false fun hfalse => hverd ⟨hout, hfalse⟩⟩
    · cases hfresh
  · exact .inr (mem_toList.1 horig)

/-! ## The decisions the service works with -/

/-- What is assumed of the consensus service: a decision gets an id that no decision has. -/
def FreshDecisions (s : HoldState) : HoldLabel → Prop
  | .gate _ _ (.ok a) | .sweepNext (.ok a) =>
    decisionById s.store.events a.decision.decisionId = none
  | _ => True

instance (s : HoldState) (l : HoldLabel) : Decidable (FreshDecisions s l) := by
  rcases l with ⟨_, _, _ | a⟩ | _ | (_ | a) | _ | _ | _ | _ <;> dsimp only [FreshDecisions] <;>
    infer_instance

/-- In every state of a run: holds stand on triggered decisions, and so do the holds
`reevaluateAll` has still to look at; the decisions it remembers are recorded. -/
structure GroundInv (s : HoldState) : Prop where
  decided : Decided s.store.events
  pending : ∀ sweep ∈ s.sweep, ∀ hold ∈ sweep.remaining,
    IsTriggered s.store.events hold.decisionId
  fresh : ∀ sweep ∈ s.sweep, ∀ feedId d, sweep.freshByFeed.get? feedId = some d →
    IsRecorded s.store.events d

theorem groundInv_start : GroundInv .start := by
  refine ⟨?_, ?_, ?_⟩
  · intro k hold h
    cases h
  all_goals rintro sweep ⟨⟩

theorem grounded_of_holdId? {body : EventBody}
    (hnone : body.holdId? = none) : Grounded events body := by
  rintro p rfl
  cases hnone

theorem gate_grounded (s : EvidenceState) (candidate : HoldCandidate) (governed : Bool)
    (answer : Except JsError DecideAnswer)
    (hnew : ∀ a, answer = .ok a → decisionById s.events a.decision.decisionId = none) :
    Appends Grounded s.events (gate env s candidate governed answer).1.events := by
  refine gate_appends (fun _ _ => grounded_of_holdId? rfl)
    (fun _ _ => grounded_of_holdId? rfl) ?_
  rintro a p rfl hplaced p' hp'
  cases hp'
  obtain ⟨e, hfound, heq⟩ : IsRecorded
      (s.appendEvent env ⟨.decision a.decision, a.recordedAt⟩).events a.decision :=
    isRecorded_appendEvent (hnew a rfl)
  rw [hplaced.decisionId]
  exact ⟨e, hfound, by rw [heq]; exact hplaced.outcome, by rw [heq]; exact hplaced.triggered⟩

theorem reevaluate_grounded (s : EvidenceState) (hold : ClaimHold)
    (freshByFeed : OrdMap String DecisionEvent) (answer : Except JsError DecideAnswer) :
    Appends Grounded s.events (reevaluate env s hold freshByFeed answer).1.events := by
  refine reevaluate_appends (fun _ _ => grounded_of_holdId? rfl)
    (fun _ _ => grounded_of_holdId? rfl) ?_
  rintro events body - hbody p rfl
  cases hbody

variable {l : HoldLabel} {s : HoldState}

theorem groundInv_idleStep {s' : HoldState} (h : GroundInv s) (hsweep : s.sweep = none)
    (hfresh : FreshDecisions s l) (hstep : idleStep env s l = some s') : GroundInv s' := by
  -- All operations but the start of `reevaluateAll` leave it unstarted.
  have hidle : ∀ t : HoldState, Appends Grounded s.store.events t.store.events →
      t.sweep = none → GroundInv t := by
    intro t hgrown ht
    refine ⟨decided_of_appends hgrown h.decided, ?_, ?_⟩ <;>
    · rw [ht]
      rintro sweep ⟨⟩
  cases l with
  | gate =>
    cases hstep
    refine hidle _ (gate_grounded _ _ _ _ ?_) hsweep
    rintro a rfl
    exact hfresh
  | startSweep =>
    cases hstep
    refine ⟨h.decided, ?_, ?_⟩
    · rintro sweep ⟨⟩ hold hmem
      obtain ⟨⟨k, hget⟩, -⟩ := mem_listHolds.1 hmem
      exact h.decided k hold hget
    · rintro sweep ⟨⟩ feedId d hget
      cases hget
  | sweepNext => cases hstep
  | dispose =>
    cases hstep
    refine hidle _ (dispose_appends (fun _ _ => grounded_of_holdId? rfl) ?_) hsweep
    rintro hold deadline - - p ⟨⟩
  | markSettled =>
    cases hstep
    refine hidle _ (markSettled_appends (fun _ _ => grounded_of_holdId? rfl) ?_) hsweep
    rintro hold - - p ⟨⟩
  | record =>
    simp only [idleStep, ite_none_right_eq_some, some.injEq] at hstep
    obtain ⟨hforeign, rfl⟩ := hstep
    exact hidle _ (appends_event _ _ (grounded_of_holdId? (holdId?_of_isForeign hforeign)))
      hsweep
  | setPayloads =>
    cases hstep
    exact hidle _ .refl hsweep

variable {sweep : Sweep}

theorem groundInv_sweepStep (h : GroundInv s) (hsweep : s.sweep = some sweep)
    (answer : Except JsError DecideAnswer)
    (hnew : ∀ a, answer = .ok a → decisionById s.store.events a.decision.decisionId = none) :
    GroundInv (sweepStep env s sweep answer) := by
  unfold sweepStep
  split
  · refine ⟨h.decided, ?_, ?_⟩
    all_goals rintro sweep ⟨⟩
  rename_i hold rest hrem
  have hgrown : Appends Grounded s.store.events
      (reevaluate env s.store hold sweep.freshByFeed answer).1.events :=
    reevaluate_grounded _ _ _ _
  obtain ⟨added, hadd⟩ := Extends.exists_append hgrown
  refine ⟨decided_of_appends hgrown h.decided, ?_, ?_⟩
  · rintro next ⟨⟩ other hmem
    rw [(Sweep.count_spec _ _ _ _).1] at hmem
    have htrig := h.pending sweep hsweep other (by rw [hrem]; exact mem_cons_of_mem _ hmem)
    rw [hadd]
    exact htrig.append added
  · rintro next ⟨⟩ feedId d hget
    rw [(Sweep.count_spec _ _ _ _).2] at hget
    rcases reevaluate_fresh _ _ _ _ hnew feedId d hget with hold | hrec
    · exact IsRecorded.extend (h.fresh sweep hsweep feedId d hold) hgrown
    · exact hrec

theorem groundInv_step {s' : HoldState} (h : GroundInv s) (hfresh : FreshDecisions s l)
    (hstep : HoldSteps env s l s') : GroundInv s' := by
  unfold HoldSteps holdStep at hstep
  split at hstep
  · rename_i hsweep
    exact groundInv_idleStep h hsweep hfresh hstep
  rename_i sweep hsweep
  split at hstep
  · cases hstep
    refine groundInv_sweepStep h hsweep _ ?_
    rintro a rfl
    exact hfresh
  · cases hstep

/-! ## Releases -/

/-- The decisions the next step of `reevaluateAll` may release a hold on: the fresh one and the
original one. -/
def consulted (s : HoldState) (answer : Except JsError DecideAnswer) : List DecisionEvent :=
  match s.sweep with
  | none => []
  | some sweep =>
    match sweep.remaining with
    | [] => []
    | hold :: _ => (freshDecision hold sweep.freshByFeed answer).toList ++
        ((decisionById s.store.events hold.decisionId).map (·.data)).toList

/-- A decision that a hold may be released on is recorded and triggered, and it is one of the
decisions consulted before. -/
theorem releasable_recorded {rest : List ClaimHold} {t : EvidenceState} {added : List EvidenceEvent}
    (hinv : GroundInv s) (hsweep : s.sweep = some sweep) (hrem : sweep.remaining = hold :: rest)
    (ht : t.events = s.store.events ++ added)
    (hfresh : freshDecision hold sweep.freshByFeed answer = some fresh)
    (hrec : IsRecorded t.events fresh) (hmem : d ∈ releasable t.events hold fresh) :
    d ∈ consulted s answer ∧ IsRecorded t.events d ∧ d.outcome = .decision ∧
      d.triggered = true := by
  obtain ⟨e, hfound, hverd⟩ := hinv.pending sweep hsweep hold (by rw [hrem]; exact mem_cons_self)
  have hconsulted : consulted s answer = [fresh, e.data] := by
    simp [consulted, hsweep, hrem, hfresh, hfound]
  rcases mem_releasable hmem with ⟨rfl, hverd⟩ | horig
  · exact ⟨by rw [hconsulted]; simp, hrec, hverd⟩
  have hlater : decisionById t.events hold.decisionId = some e := by
    rw [ht]
    exact decisionById_append hfound added
  rw [hlater] at horig
  cases horig
  refine ⟨by rw [hconsulted]; simp, ⟨e, ?_, rfl⟩, hverd⟩
  rw [decisionId_of_decisionById hfound]
  exact hlater

/-- Whenever `reevaluateAll` releases a hold on a decision, and no reading behind the decisions it
consults has failed verification by then, the decision is recorded and triggered, enough of its
contributors are independent, none was in warm-up when it was made, and each of their readings has
its payload in the store and a signature that is verified or not required. -/
theorem released_on_complete_evidence {s s' : HoldState} {answer : Except JsError DecideAnswer}
    (hrun : RunWhere (HoldSteps env) FreshDecisions .start s)
    (hnew : FreshDecisions s (.sweepNext answer))
    (hverified : ∀ d ∈ consulted s answer, NoneFailed s.store.events d)
    (hstep : HoldSteps env s (.sweepNext answer) s') {mid post : List EvidenceEvent}
    {e : EvidenceEvent} {r : HoldReleasedEvent}
    (hevents : s'.store.events = s.store.events ++ mid ++ e :: post)
    (hdata : e.data = .holdReleased r) :
    ∃ d, r.decisionId = d.decisionId ∧ IsRecorded (s.store.events ++ mid) d ∧
      CompleteEvidence env.host (s.store.events ++ mid) s.store.payloads d := by
  have hinv : GroundInv s :=
    hrun.invariant GroundInv groundInv_start fun _ _ _ => groundInv_step
  unfold HoldSteps holdStep at hstep
  split at hstep
  · cases hstep
  rename_i sweep hsweep
  cases hstep
  unfold sweepStep at hevents
  split at hevents
  · -- The end of a call appends nothing.
    have hnil := append_cancel_left
      ((append_nil _).trans (hevents.trans (append_assoc _ _ _)))
    simp at hnil
  rename_i hold rest hremaining
  obtain ⟨t, fresh, d, clock, ht, hpayloads, hfresh, hmem, hnamed, hassess, hstate⟩ :=
    reevaluate_release hevents hdata
  have hrecorded : IsRecorded t.events fresh := by
    rcases hstate with ⟨hremembered, rfl⟩ | ⟨a, rfl, rfl, rfl⟩
    · exact hinv.fresh sweep hsweep hold.feedId fresh hremembered
    · exact isRecorded_appendEvent (s := s.store.tick) hnew
  have hreadings : ∀ readingId,
      recordedReading t.events readingId = recordedReading s.store.events readingId := by
    intro readingId
    rcases hstate with ⟨-, rfl⟩ | ⟨a, -, -, rfl⟩
    · rfl
    · exact recordedReading_decision s.store.tick a readingId
  obtain ⟨hconsulted, hd, hverdict⟩ :=
    releasable_recorded hinv hsweep hremaining ht hfresh hrecorded hmem
  have hnone : NoneFailed t.events d := by
    intro c hc
    rw [hreadings]
    exact hverified d hconsulted c hc
  rw [← ht, ← hpayloads]
  exact ⟨d, hnamed, hd, completeEvidence_of_assess hassess hverdict hnone⟩

/-! ## Runs with the engine's decisions -/

/-- What `decide` answers when it runs the engine at the next timestamp of the ledger. -/
def engineAnswer (env : HoldEnv) (s : EvidenceState) (feedId decisionId : String) :
    Except JsError DecideAnswer :=
  let t := s.ledger.reserveTimestamp (env.clock s.ticks)
  (computeConsensus env.host (consensusInputAt env.host s.events feedId t)).map fun r =>
    ⟨r.toDecision decisionId none, some t⟩

/-- The decisions of the step are the engine's. -/
def AnsweredByEngine (env : HoldEnv) (s : HoldState) : HoldLabel → Prop
  | .gate candidate _ (.ok a) =>
    .ok a = engineAnswer env s.store candidate.feedId a.decision.decisionId
  | .sweepNext (.ok a) => ∀ feedId ∈ (s.sweep.bind (·.remaining.head?)).map (·.feedId),
      .ok a = engineAnswer env s.store.tick feedId a.decision.decisionId
  | _ => True

instance (env : HoldEnv) (s : HoldState) (l : HoldLabel) :
    Decidable (AnsweredByEngine env s l) := by
  rcases l with ⟨_, _, _ | a⟩ | _ | (_ | a) | _ | _ | _ | _ <;> dsimp only [AnsweredByEngine] <;>
    infer_instance

/-- The assumptions on the service, with a consensus service that runs the engine. -/
structure EngineAssumptions (env : HoldEnv) (s : HoldState) (l : HoldLabel) : Prop where
  holds : HoldAssumptions env s l
  decisions : FreshDecisions s l
  engine : AnsweredByEngine env s l

instance (env : HoldEnv) (s : HoldState) (l : HoldLabel) :
    Decidable (EngineAssumptions env s l) :=
  decidable_of_iff (HoldAssumptions env s l ∧ FreshDecisions s l ∧ AnsweredByEngine env s l)
    ⟨fun h => ⟨h.1, h.2.1, h.2.2⟩, fun h => ⟨h.holds, h.decisions, h.engine⟩⟩

def ethPayloadHash : String := "aaaaaaaaaaaaaaaaaaaaaaaaaaaaaaaaaaaaaaaaaaaaaaaaaaaaaaaaaaaaaaaa"

def ethCandidate : HoldCandidate := ⟨"p1", "alice", "eth", .finite 1000⟩

/-- The engine's decision on the one reading at `atTime`. -/
def ethDecision (decisionId : String) (atTime : ℚ) : DecisionEvent :=
  { ethResult with atTime }.toDecision decisionId none

/-- A payout is held for a pending signature, the verification result arrives, and `reevaluateAll`
starts. -/
def lateResult (result : SignatureResult) : List HoldLabel :=
  [.setPayloads ⟨[ethPayloadHash]⟩,
   .record ⟨.quorumPolicy ethPolicy, none⟩,
   .record ⟨.sourceVersion ethSource, none⟩,
   .record ⟨.reading { ethReading with observedAt := 1, payloadHash := some ethPayloadHash }, none⟩,
   .gate ethCandidate true (.ok ⟨ethDecision "d1" 3, some 3⟩),
   .record ⟨.signatureResult ⟨"r1", result⟩, none⟩,
   .startSweep]

/-- The release of the hold on a decision. -/
def releaseOn (decisionId : String) : HoldReleasedEvent where
  holdId := "hold_p1:d1"
  decisionId
  reason := "evidence complete and verdict stands (" ++ decisionId ++ ": triggered: 90 lt 100)"

def releaseAudit (decisionId : String) : AuditEvent where
  action := "claim_hold.released"
  actor := "system"
  reason := (releaseOn decisionId).reason

/-- With a verified signature the hold is released on the fresh decision. -/
theorem released_on_complete_evidence_verified :
    ∃ s s', RunWhere (HoldSteps plainHoldEnv) FreshDecisions .start s ∧
      HoldSteps plainHoldEnv s (.sweepNext (.ok ⟨ethDecision "d2" 10, some 10⟩)) s' ∧
      s'.store.events = s.store.events ++ [⟨8, 10, .decision (ethDecision "d2" 10)⟩] ++
        ⟨9, 12, .holdReleased (releaseOn "d2")⟩ :: [⟨10, 13, .audit (releaseAudit "d2")⟩] ∧
      ∃ d, "d2" = d.decisionId ∧
        CompleteEvidence plainHost (s.store.events ++ [⟨8, 10, .decision (ethDecision "d2" 10)⟩])
          s.store.payloads d := by
  have hrun : RunWhere (HoldSteps plainHoldEnv) FreshDecisions .start _ :=
    .performed (lateResult .verified) (by decide +kernel)
  obtain ⟨d, hnamed, -, hcomplete⟩ := @released_on_complete_evidence plainHoldEnv _ _
    (.ok ⟨ethDecision "d2" 10, some 10⟩) hrun (by decide +kernel) (by decide +kernel)
    (some_get (by decide +kernel)).symm [⟨8, 10, .decision (ethDecision "d2" 10)⟩]
    [⟨10, 13, .audit (releaseAudit "d2")⟩] ⟨9, 12, .holdReleased (releaseOn "d2")⟩ _
    (by decide +kernel) rfl
  exact ⟨_, _, hrun, (some_get (by decide +kernel)).symm, by decide +kernel, d, hnamed,
    hcomplete⟩

/-- The engine's answer when the only reading is not eligible. -/
def unmetAnswer : DecideAnswer := ⟨(unsourcedResult 10).toDecision "d2" none, some 10⟩

/-- With a failed signature the engine has no decision any more, and the hold is released on the
original decision, which rests on the reading that failed. -/
theorem released_on_failed_signature :
    ∃ s s' mid e post r,
      RunWhere (HoldSteps plainHoldEnv) (EngineAssumptions plainHoldEnv) .start s ∧
      EngineAssumptions plainHoldEnv s (.sweepNext (.ok unmetAnswer)) ∧
      HoldSteps plainHoldEnv s (.sweepNext (.ok unmetAnswer)) s' ∧
      s'.store.events = s.store.events ++ mid ++ e :: post ∧ e.data = .holdReleased r ∧
      ∀ d, r.decisionId = d.decisionId → IsRecorded (s.store.events ++ mid) d →
        ∃ c ∈ d.contributing,
          (recordedReading (s.store.events ++ mid) c.readingId).map (·.signature) =
            some .failed := by
  refine ⟨_, _, [⟨8, 10, .decision unmetAnswer.decision⟩], ⟨9, 12, .holdReleased (releaseOn "d1")⟩,
    [⟨10, 13, .audit (releaseAudit "d1")⟩], _,
    .performed (lateResult .failed) (by decide +kernel), by decide +kernel,
    (some_get (by decide +kernel)).symm, by decide +kernel, rfl, ?_⟩
  rintro d hnamed ⟨e, hfound, rfl⟩
  have hid : e.data.decisionId = "d1" := hnamed.symm
  rw [hid] at hfound
  have horiginal : (some e).map (·.data) = some (ethDecision "d1" 3) := by
    rw [← hfound]
    decide +kernel
  rw [show e.data = ethDecision "d1" 3 from some.inj horiginal]
  exact ⟨⟨"r1", "s1", 90, 2, some true⟩, mem_singleton.2 rfl, by decide +kernel⟩

end Refract.Consensus
