import Mathlib.Data.List.Infix
import Refract.Claim.SettledOnce
import Refract.Lib.Traces

/-!
# Confirmed triggers

A trigger is confirmed by a stretch of readings past the threshold: enough of them, far enough
apart, and with no reading of the same policy in between that was not past it (`ConfirmedBy`). The
evaluator keeps this promise about the readings it is shown (`Tracks.observe`). The scan does not
show it every reading: a reading whose consensus decision does not authorize a payout is dropped,
and a recovered feed gives just such decisions. `payout_entered_confirmed` says that nothing else
can go wrong: if no recovery is dropped while the trigger is arming, every payout a scan enters has
a confirmed stretch behind it. In `spikesPaid` the one recovery between two spikes is dropped, and
the second spike pays.
-/

namespace Refract.Claim

open Lib List ScanPc
open Refract.Oracle
open ClaimState

/-! ## What the evaluator knows about its readings -/

variable {minConfirmations : Int}

section Evaluator

variable {K : Type} [Field K] [LinearOrder K]

/-- A stretch of consecutive readings, all past the threshold: at least `minConfirmations` of them,
the first and the last at least `minDwellMs` apart. A reading is its time and whether it was past
the threshold. -/
def ConfirmedBy (minDwellMs : K) (minConfirmations : Int) (readings : List (K × Bool)) : Prop :=
  ∃ segment first last, segment <:+: readings ∧ (∀ r ∈ segment, r.2 = true) ∧
    minConfirmations ≤ segment.length ∧ segment.head? = some first ∧
    segment.getLast? = some last ∧ minDwellMs ≤ last.1 - first.1

/-- The candidate of the state is the stretch at the end of the readings. -/
def Armed (readings : List (K × Bool)) (s : TriggerKeyState K) : Prop :=
  ∃ segment first, segment <:+ readings ∧ (∀ r ∈ segment, r.2 = true) ∧
    s.candidateCount ≤ segment.length ∧ segment.head? = some first ∧
    s.candidateSince = some first.1

/-- What the phase of a key says about the readings of the key. -/
structure Tracks (config : TriggerStabilityConfig K) (readings : List (K × Bool))
    (s : TriggerKeyState K) : Prop where
  arming : s.phase = .arming → Armed readings s
  confirmed : isConfirmed s.phase = true →
    ConfirmedBy config.minDwellMs config.minConfirmations readings

variable {config : TriggerStabilityConfig K} {readings : List (K × Bool)} {s : TriggerKeyState K}

theorem ConfirmedBy.append {minDwellMs : K} (h : ConfirmedBy minDwellMs minConfirmations readings)
    (added : List (K × Bool)) : ConfirmedBy minDwellMs minConfirmations (readings ++ added) := by
  obtain ⟨segment, first, last, hinfix, hrest⟩ := h
  exact ⟨segment, first, last, hinfix.trans (prefix_append readings added).isInfix, hrest⟩

omit [Field K] [LinearOrder K] in
theorem Armed.append (h : Armed readings s) (time : K) :
    Armed (readings ++ [(time, true)]) { s with candidateCount := s.candidateCount + 1 } := by
  obtain ⟨segment, first, ⟨before, rfl⟩, hbrk, hcnt, hfst, hsince⟩ := h
  refine ⟨segment ++ [(time, true)], first, ⟨before, by simp⟩, ?_, ?_, ?_, hsince⟩
  · exact forall_mem_snoc.2 ⟨hbrk, rfl⟩
  · simpa using hcnt
  · rw [head?_append, hfst]
    rfl

variable {time : K}

/-- A candidate that has met its dwell confirms the stretch that ends now. -/
theorem Armed.confirmedBy {since : K} (h : Armed (readings ++ [(time, true)]) s)
    (hsince : s.candidateSince = some since) (hcnt : config.minConfirmations ≤ s.candidateCount)
    (hdwell : config.minDwellMs ≤ time - since) :
    ConfirmedBy config.minDwellMs config.minConfirmations (readings ++ [(time, true)]) := by
  obtain ⟨segment, first, hsuffix, hbrk, hlen, hfst, hfirstSince⟩ := h
  obtain rfl : first.1 = since := Option.some.inj (hfirstSince.symm.trans hsince)
  exact ⟨segment, first, (time, true), hsuffix.isInfix, hbrk,
    hcnt.trans (by exact_mod_cast hlen), hfst, getLast?_of_suffix_snoc hsuffix hfst, hdwell⟩

omit [Field K] [LinearOrder K] in
/-- A breach that arms the trigger, or that adds to an armed one. -/
theorem Armed.of_candidate {prev : TriggerKeyState K} (hph : isConfirmed prev.phase = false)
    (h : prev.phase = .arming → Armed readings prev)
    (hcand : Candidate prev time s.candidateSince s.candidateCount) :
    Armed (readings ++ [(time, true)]) s := by
  rw [Candidate, hph] at hcand
  rcases hcand with ⟨-, hsince, hcnt⟩ | ⟨harming, hsince, hcnt⟩
  · exact ⟨[(time, true)], (time, true), suffix_append _ _, forall_mem_singleton.2 rfl, hcnt.le,
      rfl, hsince⟩
  · obtain ⟨segment, first, hsuffix, hbrk, hlen, hfst, hfirstSince⟩ :=
      (h harming).append time
    exact ⟨segment, first, hsuffix, hbrk, hcnt.trans_le hlen, hfst, hsince.trans hfirstSince⟩

/-- A reading the evaluator is not shown does no harm, unless it is a recovery while arming. -/
theorem Tracks.skip (h : Tracks config readings s) (r : K × Bool)
    (hr : s.phase = .arming → r.2 = true) : Tracks config (readings ++ [r]) s where
  arming harming := by
    obtain ⟨segment, first, hsuffix, hbrk, hcnt, hfst, hsince⟩ :=
      (h.arming harming).append r.1
    have hpair : (r.1, true) = r := by rw [← hr harming]
    rw [hpair] at hsuffix
    exact ⟨segment, first, hsuffix, hbrk, (Nat.le_succ _).trans hcnt, hfst, hsince⟩
  confirmed hconf := (h.confirmed hconf).append [r]

theorem Tracks.of_clear (hph : s.phase = .clear) : Tracks config readings s where
  arming harming := by
    rw [hph] at harming
    cases harming
  confirmed hconf := by
    rw [hph] at hconf
    cases hconf

theorem Tracks.of_confirmed (hph : s.phase ≠ .arming)
    (h : ConfirmedBy config.minDwellMs config.minConfirmations readings) :
    Tracks config readings s :=
  ⟨fun harming => absurd harming hph, fun _ => h⟩

theorem Tracks.of_armed (hph : s.phase = .arming) (h : Armed readings s) :
    Tracks config readings s where
  arming _ := h
  confirmed hconf := by
    rw [hph] at hconf
    cases hconf

/-- A new observation. -/
theorem Tracks.observeStep {next : TriggerKeyState K} {obs : TriggerObservation K}
    (h : Tracks config readings s) (hstep : ObserveStep config s obs next) :
    Tracks config (readings ++ [(obs.observedAt, obs.breached)]) next := by
  cases hconf : isConfirmed s.phase with
  | true =>
    have hstretch := (h.confirmed hconf).append [(obs.observedAt, obs.breached)]
    cases hstep with
    | settled hph | pursued _ _ hph =>
      exact .of_confirmed (by rw [hph, hconf]; decide) hstretch
    | changed _ _ _ _ _ _ _ hph =>
      exact .of_clear (by rw [hph, hconf]; rfl)
  | false =>
    cases hstep with
    | settled hph => exact .of_clear (by rw [hph, hconf]; rfl)
    | pursued hside hcand hph =>
      rw [hconf] at hside
      have hbrk : obs.breached = true := hside
      rw [hbrk]
      exact .of_armed (by rw [hph, hconf]; rfl) (Armed.of_candidate hconf h.arming hcand)
    | changed since count hside hcand hcnt hdwell _ hph =>
      rw [hconf] at hside
      have hbrk : obs.breached = true := hside
      rw [hbrk]
      refine .of_confirmed (by rw [hph, hconf]; decide) ?_
      have harmed : Armed (readings ++ [(obs.observedAt, true)])
          { s with candidateSince := some since, candidateCount := count } :=
        Armed.of_candidate hconf h.arming hcand
      exact harmed.confirmedBy rfl hcnt hdwell

/-- One observation. An ignored one has to be no recovery while arming. -/
theorem Tracks.observe (h : Tracks config readings s) (pow2 : K → K) (obs : TriggerObservation K)
    (hignored : isNewer s obs = false → s.phase = .arming → obs.breached = true) :
    Tracks config (readings ++ [(obs.observedAt, obs.breached)]) (observe pow2 config s obs) := by
  by_cases hnewer : isNewer s obs = true
  · exact h.observeStep (observeStep_of_newer hnewer).2
  rw [Claim.observe, if_neg hnewer]
  rw [Bool.not_eq_true] at hnewer
  exact h.skip _ (hignored hnewer)

end Evaluator

/-! ## The property and the condition -/

/-- The readings of a policy that were not anomalous: when they were fetched, in milliseconds, and
whether they were past the threshold. -/
def readingsOf (policyId : String) (trace : List ClaimEvent) : List (ℚ × Bool) :=
  trace.filterMap fun
    | .fetched id fetchedAt false breached =>
      if id = policyId then some ((fetchedAt : ℚ) * 1000, breached) else none
    | _ => none

/-- Every payout a scan enters has a confirmed stretch of readings behind it. -/
def EntersConfirmed (minDwellMs : ℚ) (minConfirmations : Int) (trace : List ClaimEvent) : Prop :=
  PrecededBy (fun e before => ∀ policyId, e = .payoutEntered .scan policyId →
    ConfirmedBy minDwellMs minConfirmations (readingsOf policyId before)) trace

/-- A reading that is not past the threshold is not dropped while the trigger of its policy is
arming: its decision authorizes a payout, it is fresh, and it is newer than the last one observed.
-/
def RecoverySeen (s : ClaimState) : ClaimLabel → Prop
  | .decided answer _ now =>
    match s.scan.pc with
    | .deciding policy _ fetchedAt reading =>
      (stateOf s.triggers policy.id).phase = .arming →
        readingBreached policy reading = false →
          ReachesEvaluator policy fetchedAt answer now ∧
            ∀ last ∈ (stateOf s.triggers policy.id).lastObservedAt,
              last < (fetchedAt : ℚ) * 1000
    | _ => True
  | _ => True

instance (policy : StoredPolicy) (fetchedAt : Int) (answer : Option ConsensusDecision) (now : ℚ) :
    Decidable (ReachesEvaluator policy fetchedAt answer now) :=
  inferInstanceAs (Decidable (_ ∧ _))

instance (s : ClaimState) (l : ClaimLabel) : Decidable (RecoverySeen s l) := by
  unfold RecoverySeen
  split
  · split <;> infer_instance
  · infer_instance

theorem readingsOf_append (policyId : String) (trace added : List ClaimEvent) :
    readingsOf policyId (trace ++ added) = readingsOf policyId trace ++ readingsOf policyId added :=
  filterMap_append

theorem readingsOf_of_isOffScan {events : List ClaimEvent} (h : ∀ e ∈ events, e.isOffScan)
    (policyId : String) : readingsOf policyId events = [] := by
  apply filterMap_eq_nil_iff.2
  intro e he
  have hoff := h e he
  cases e with
  | fetched => cases hoff
  | _ => rfl

/-! ## The invariant -/

/-- The reading a scan awaits a decision for: it is in the trace, and not yet at the evaluator. -/
def ScanPc.inFlight : ScanPc → String → List (ℚ × Bool)
  | .deciding policy _ fetchedAt reading, policyId =>
    if policy.id = policyId then
      [((fetchedAt : ℚ) * 1000, readingBreached policy reading)]
    else []
  | _, _ => []

variable {pc : ScanPc}

theorem inFlight_of_isDeciding (h : pc.isDeciding = false) (policyId : String) :
    pc.inFlight policyId = [] := by
  cases pc with
  | deciding => cases h
  | _ => rfl

theorem isDeciding_of_isCalm (h : pc.isCalm = true) : pc.isDeciding = false := by
  cases pc with
  | deciding => cases h
  | _ => rfl

/-- The state of the policy's trigger tracks its readings, but for the one in flight. -/
def TracksPolicy (config : TriggerStabilityConfig ℚ) (v : ScanView) (policyId : String) : Prop :=
  ∃ readings, readingsOf policyId v.trace = readings ++ v.pc.inFlight policyId ∧
    Tracks config readings (stateOf v.triggers policyId)

/-- What a scan knows about the policy it is about to pay. -/
def ScanConfirmed (config : TriggerStabilityConfig ℚ) (v : ScanView) : Prop :=
  match v.pc with
  | .deciding _ _ _ reading => reading.value.finite?.isSome = true
  | .pausing t _ =>
    ConfirmedBy config.minDwellMs config.minConfirmations (readingsOf t.policy.id v.trace)
  | _ => True

/-- The invariant along a run. -/
structure TriggerInv (config : TriggerStabilityConfig ℚ) (v : ScanView) : Prop where
  enters : EntersConfirmed config.minDwellMs config.minConfirmations v.trace
  tracks : ∀ policyId, TracksPolicy config v policyId
  scan : ScanConfirmed config v

variable {minDwellMs : ℚ} {trace : List ClaimEvent}

/-- Events that enter no payout from the scan have nothing to show. -/
theorem EntersConfirmed.append (h : EntersConfirmed minDwellMs minConfirmations trace)
    (added : List ClaimEvent) (hadd : ∀ policyId, .payoutEntered .scan policyId ∉ added) :
    EntersConfirmed minDwellMs minConfirmations (trace ++ added) := by
  refine PrecededBy.append h added ?_
  rintro new e post heq policyId rfl
  exact absurd (by simp [heq]) (hadd policyId)

theorem EntersConfirmed.append_isOffScan (h : EntersConfirmed minDwellMs minConfirmations trace)
    {added : List ClaimEvent} (hadd : ∀ e ∈ added, e.isOffScan) :
    EntersConfirmed minDwellMs minConfirmations (trace ++ added) := by
  refine h.append added ?_
  intro policyId hmem
  cases hadd _ hmem

variable {config : TriggerStabilityConfig ℚ} {v : ScanView}

/-- The triggers as they are, or without one policy, and another position with the same reading in
flight. -/
theorem TracksPolicy.move {policyId : String} (h : TracksPolicy config v policyId) (pc : ScanPc)
    (triggers : OrdMap String (TriggerKeyState ℚ)) (events : List ClaimEvent)
    (hpc : pc.inFlight policyId = v.pc.inFlight policyId) (hevs : readingsOf policyId events = [])
    (htrigs : stateOf triggers policyId = stateOf v.triggers policyId ∨
      stateOf triggers policyId = initialState) :
    TracksPolicy config ⟨pc, triggers, v.trace ++ events⟩ policyId := by
  obtain ⟨readings, hread, htrk⟩ := h
  refine ⟨readings, ?_, ?_⟩
  · rw [readingsOf_append, hevs, append_nil, hpc]
    exact hread
  · rcases htrigs with heq | heq
    · rw [heq]
      exact htrk
    · rw [heq]
      exact .of_clear rfl

theorem stateOf_delete (triggers : OrdMap String (TriggerKeyState ℚ)) (removed policyId : String) :
    stateOf (triggers.delete removed) policyId = stateOf triggers policyId ∨
      stateOf (triggers.delete removed) policyId = initialState := by
  unfold stateOf
  rw [OrdMap.get?_delete]
  split
  · exact .inr rfl
  · exact .inl rfl

variable {policy : StoredPolicy} {reading : OracleReading}

/-- Whether a reading is past the threshold does not depend on when it was fetched. -/
theorem readingBreached_eq {value : ℚ} (hvalue : reading.value.finite? = some value)
    (fetchedAt : Int) :
    readingBreached policy reading = (observationOf policy reading value fetchedAt).breached := by
  simp only [readingBreached, hvalue]
  rfl

/-- The reading in flight leaves, whether the evaluator has seen it or not. -/
theorem TracksPolicy.land {rest : List StoredPolicy} {fetchedAt : Int}
    (hfrom : v.pc = .deciding policy rest fetchedAt reading)
    (h : ∀ policyId, TracksPolicy config v policyId) (pc : ScanPc)
    (hpc : pc.isDeciding = false) (triggers : OrdMap String (TriggerKeyState ℚ))
    (events : List ClaimEvent) (hevs : ∀ e ∈ events, e.isOffScan)
    (hothers : ∀ other, other ≠ policy.id → stateOf triggers other = stateOf v.triggers other)
    (hself : ∀ readings, Tracks config readings (stateOf v.triggers policy.id) →
      Tracks config (readings ++ [((fetchedAt : ℚ) * 1000,
        readingBreached policy reading)]) (stateOf triggers policy.id))
    (policyId : String) : TracksPolicy config ⟨pc, triggers, v.trace ++ events⟩ policyId := by
  obtain ⟨readings, hread, htrk⟩ := h policyId
  rw [hfrom] at hread
  by_cases hid : policyId = policy.id
  · subst hid
    refine ⟨_, ?_, hself readings htrk⟩
    rw [readingsOf_append, readingsOf_of_isOffScan hevs, append_nil, hread,
      inFlight_of_isDeciding hpc, append_nil]
    simp [inFlight]
  · refine ⟨readings, ?_, ?_⟩
    · rw [readingsOf_append, readingsOf_of_isOffScan hevs, append_nil, hread,
        inFlight_of_isDeciding hpc]
      simp [inFlight, Ne.symm hid]
    · rw [hothers policyId hid]
      exact htrk

/-- The dwell and the confirmations are those of the service, for every coverage type. -/
theorem Tracks.of_coverageType {overrides : TriggerOverrides} {a b : Option Nat}
    {readings : List (ℚ × Bool)} {s : TriggerKeyState ℚ}
    (h : Tracks (defaultTriggerConfig a overrides) readings s) :
    Tracks (defaultTriggerConfig b overrides) readings s :=
  ⟨h.arming, h.confirmed⟩

/-- One step keeps the invariant. -/
theorem triggerInv_step {env : ClaimEnv} {s s' : ClaimState} {l : ClaimLabel}
    (hval : ∀ coverageType,
      validateTriggerConfig (defaultTriggerConfig coverageType env.triggerOverrides) = .ok ())
    (h : TriggerInv (defaultTriggerConfig none env.triggerOverrides) s.scanView)
    (hseen : RecoverySeen s l) (hstep : ClaimSteps env s l s') :
    TriggerInv (defaultTriggerConfig none env.triggerOverrides) s'.scanView := by
  have heff := (stepEffects hstep).scan
  generalize s'.scanView = v' at heff ⊢
  obtain ⟨henters, htrk, hscan⟩ := h
  cases heff with
  | kept pc triggers events hpc hevs htrigs =>
    refine ⟨henters.append_isOffScan hevs, ?_, ?_⟩
    · intro policyId
      refine (htrk policyId).move pc triggers events ?_ (readingsOf_of_isOffScan hevs policyId) ?_
      · change pc.inFlight policyId = s.scan.pc.inFlight policyId
        generalize s.scan.pc = old at hpc
        cases hpc <;> rfl
      · rcases htrigs with rfl | ⟨removed, rfl⟩
        · exact .inl rfl
        · exact stateOf_delete s.triggers removed policyId
    · simp only [ScanConfirmed, scanView] at hscan ⊢
      generalize s.scan.pc = old at hpc hscan
      cases hpc with
      | paying => trivial
      | refl =>
        cases pc with
        | deciding => exact hscan
        | pausing =>
          simp only [readingsOf_append]
          exact hscan.append _
        | _ => trivial
  | rested pc events hpc hfrom hevs =>
    refine ⟨henters.append_isOffScan hevs, ?_, ?_⟩
    · intro policyId
      refine (htrk policyId).move pc s.triggers events ?_
        (readingsOf_of_isOffScan hevs policyId) (.inl rfl)
      rw [inFlight_of_isDeciding (isDeciding_of_isCalm hpc)]
      exact (inFlight_of_isDeciding hfrom policyId).symm
    · cases pc with
      | idle | loop | tripping => trivial
      | fetching | deciding | pausing | paying => cases hpc
  | taken _ _ _ hfrom | anomalous _ _ _ _ _ _ hfrom =>
    refine ⟨henters.append _ (by simp), ?_, trivial⟩
    intro policyId
    refine (htrk policyId).move _ s.triggers _ ?_ rfl (.inl rfl)
    simp [scanView, hfrom, inFlight]
  | read policy _ _ reading hfrom hfinite =>
    refine ⟨henters.append _ (by simp), ?_, hfinite⟩
    intro policyId
    obtain ⟨readings, hread, htrack⟩ := htrk policyId
    refine ⟨readings, ?_, htrack⟩
    -- The new reading is in the trace and in flight.
    simp only [scanView, hfrom, inFlight, append_nil] at hread
    rw [readingsOf_append, hread]
    by_cases hid : policy.id = policyId <;> simp [readingsOf, inFlight, hid]
  | unevaluated _ _ _ _ events _ _ _ hfrom hevs hlabel hwhy =>
    refine ⟨henters.append_isOffScan hevs, ?_, trivial⟩
    refine TracksPolicy.land hfrom htrk _ rfl s.triggers events hevs (fun _ _ => rfl) ?_
    intro readings htrack
    refine htrack.skip _ ?_
    intro harming
    by_contra hbrk
    rw [Bool.not_eq_true] at hbrk
    subst hlabel
    simp only [RecoverySeen, hfrom] at hseen
    have hreaches := (hseen harming hbrk).1
    rcases hwhy with hdropped | hnone | ⟨coverageType, e, hinvalid⟩
    · exact hdropped hreaches
    · simp [ScanConfirmed, scanView, hfrom, hnone] at hscan
    · rw [hval] at hinvalid
      cases hinvalid
  | evaluated policy rest fetchedAt reading value decision coverageType e pc answer trust now
      hfrom hlabel hauth hvalue heval hpc =>
      obtain ⟨hself, hothers, htrig, -, -, -, -⟩ := evaluate_ok heval
      have hoff : ∀ e ∈ [ClaimEvent.authorized policy.id policy.coverageType decision],
          e.isOffScan := by simp [ClaimEvent.isOffScan]
      have hdeciding : pc.isDeciding = false := by
        rcases hpc with ⟨rfl, -⟩ | ⟨t, rfl, -⟩ <;> rfl
      have hland : ∀ policyId, TracksPolicy (defaultTriggerConfig none env.triggerOverrides)
          ⟨pc, e.states, s.trace ++ [ClaimEvent.authorized policy.id policy.coverageType decision]⟩
            policyId := by
        refine TracksPolicy.land hfrom htrk pc hdeciding e.states _ hoff hothers ?_
        intro readings htrack
        have htrack' : Tracks (defaultTriggerConfig coverageType env.triggerOverrides) readings
            (stateOf s.triggers policy.id) := htrack.of_coverageType
        rw [hself, readingBreached_eq hvalue fetchedAt]
        refine Tracks.of_coverageType (htrack'.observe env.pow2
          (observationOf policy reading value fetchedAt) ?_)
        intro hold harming
        -- An ignored reading of an arming trigger is a breach: recoveries are newer.
        by_contra hbrk
        rw [Bool.not_eq_true, ← readingBreached_eq hvalue fetchedAt] at hbrk
        subst hlabel
        simp only [RecoverySeen, hfrom] at hseen
        have hnewer := (hseen harming hbrk).2
        unfold isNewer at hold
        split at hold
        · cases hold
        · rename_i last hlast
          exact of_decide_eq_false hold (hnewer last hlast)
      refine ⟨henters.append_isOffScan hoff, hland, ?_⟩
      rcases hpc with ⟨rfl, -⟩ | ⟨t, rfl, rfl, hyes⟩
      · trivial
      obtain ⟨readings, hread, htrack⟩ := hland t.policy.id
      rw [htrig] at hyes
      change ConfirmedBy _ _ (readingsOf t.policy.id _)
      rw [hread]
      exact (htrack.confirmed hyes).append _
  | entered t _ _ hfrom =>
    have hconf := hscan
    simp only [ScanConfirmed, scanView, hfrom] at hconf
    refine ⟨?_, ?_, trivial⟩
    · have hpaused := henters.append
        [.pauseAnswered t.policy.id t.policy.coverageType false] (by simp)
      have hentered := PrecededBy.snoc hpaused (.payoutEntered .scan t.policy.id) (by
        intro policyId heq
        cases heq
        rw [readingsOf_append]
        exact hconf.append _)
      rw [append_assoc] at hentered
      exact hentered
    · intro policyId
      refine (htrk policyId).move _ s.triggers _ ?_ rfl (.inl rfl)
      simp [scanView, hfrom, inFlight]

theorem triggerInv_start (config : TriggerStabilityConfig ℚ)
    (policies : OrdMap String StoredPolicy) : TriggerInv config (start policies).scanView where
  enters := PrecededBy.nil _
  tracks _ := ⟨[], rfl, .of_clear rfl⟩
  scan := trivial

/-- In every run of a validly configured service in which no recovery is dropped while its trigger
is arming, every payout a scan enters has behind it at least `minConfirmations` readings of the
policy, at least `minDwellMs` apart, with no reading among them that was not past its threshold. -/
theorem payout_entered_confirmed (env : ClaimEnv) (policies : OrdMap String StoredPolicy)
    (hvalid : ∀ coverageType,
      validateTriggerConfig (defaultTriggerConfig coverageType env.triggerOverrides) = .ok ())
    (s : ClaimState) (hrun : RunWhere (ClaimSteps env) RecoverySeen (start policies) s) :
    EntersConfirmed (defaultTriggerConfig none env.triggerOverrides).minDwellMs
      (defaultTriggerConfig none env.triggerOverrides).minConfirmations s.trace := by
  have hinv : TriggerInv (defaultTriggerConfig none env.triggerOverrides) s.scanView := by
    refine hrun.invariant
      (fun t => TriggerInv (defaultTriggerConfig none env.triggerOverrides) t.scanView)
      (triggerInv_start _ policies) ?_
    intro a l b h hseen hstep
    exact triggerInv_step hvalid h hseen hstep
  exact hinv.enters

/-! ## Two spikes and a recovery -/

/-- A service with the default dwell of five minutes and two confirmations. -/
def patientEnv : ClaimEnv := { quickEnv with triggerOverrides := ⟨none, none⟩ }

/-- The decision of a feed that is not past its threshold. -/
def calmDecision : ConsensusDecision :=
  ⟨"StablecoinDepeg@2", "StablecoinDepeg", false, true, "ok", [], some 2⟩

/-- The feed is past the threshold at 0 s, recovered at 100 s, and past it again at 300 s. -/
def spikesPaid : List ClaimLabel :=
  scanReading 0 (94 / 100) depegDecision none ++ [.scanNext 0] ++
    scanReading 100000 (96 / 100) calmDecision none ++ [.scanNext 100000] ++
    scanReading 300000 (94 / 100) depegDecision none ++ [.pauseAnswered (some false)]

/-- What the scan notes before it enters the payout. -/
def spikesTrace : List ClaimEvent :=
  [.stepStarted .scan "1", .fetched "1" 0 false true, .authorized "1" 0 depegDecision,
    .stepStarted .scan "1", .fetched "1" 100 false false, .stepStarted .scan "1",
    .fetched "1" 300 false true, .authorized "1" 0 depegDecision, .pauseAnswered "1" 0 false]

/-- The evaluator is not shown the recovery, so it counts two consecutive breaches and the second
spike enters a payout. -/
theorem spikes_with_recovery_pay :
    ∃ s, RunWhere (ClaimSteps patientEnv) (fun _ _ => True) (depegStart ["1"]) s ∧
      ¬EntersConfirmed (defaultTriggerConfig none patientEnv.triggerOverrides).minDwellMs
        (defaultTriggerConfig none patientEnv.triggerOverrides).minConfirmations s.trace := by
  refine RunWhere.exists_reached spikesPaid
    (fun s => s.trace = spikesTrace ++ [.payoutEntered .scan "1"]) (by decide +kernel)
    fun s _ htrace henters => ?_
  rw [htrace] at henters
  obtain ⟨segment, first, last, hinfix, hbreached, hlength, -⟩ :=
    henters spikesTrace _ [] rfl "1" rfl
  -- The recovery is the middle one of three readings, so a stretch of breaches has one reading.
  have hshort : ∀ tail ∈ [((0 : ℚ), true), (100000, false), (300000, true)].tails,
      ∀ segment ∈ tail.inits, (∀ r ∈ segment, r.2 = true) → segment.length < 2 := by
    decide +kernel
  have hreadings : readingsOf "1" spikesTrace =
      [((0 : ℚ), true), (100000, false), (300000, true)] := by
    decide +kernel
  rw [hreadings] at hinfix
  obtain ⟨tail, htail, hsuffix⟩ := infix_iff_prefix_suffix.1 hinfix
  have hlt := hshort tail ((mem_tails _ _).2 hsuffix) segment ((mem_inits _ _).2 htail)
    hbreached
  have hle : (2 : Int) ≤ segment.length := hlength
  omega

/-- Two breaches five minutes apart, with no reading in between, enter a payout. -/
theorem payout_entered_confirmed_twoBreaches :
    ∃ s, RunWhere (ClaimSteps patientEnv) RecoverySeen (depegStart ["1"]) s ∧
      .payoutEntered .scan "1" ∈ s.trace ∧
      EntersConfirmed (defaultTriggerConfig none patientEnv.triggerOverrides).minDwellMs
        (defaultTriggerConfig none patientEnv.triggerOverrides).minConfirmations s.trace := by
  refine ⟨_, .performed (scanReading 0 (9 / 10) depegDecision none ++ [.scanNext 0] ++
    scanReading 300000 (9 / 10) depegDecision none ++ [.pauseAnswered (some false)])
    (by decide +kernel), by decide +kernel,
    payout_entered_confirmed patientEnv _ (fun coverageType => ?_) _ (.performed _ _)⟩
  exact defaultTriggerConfig_valid coverageType _ (by simp [patientEnv]) (by simp [patientEnv])

end Refract.Claim
