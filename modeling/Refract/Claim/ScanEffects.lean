import Refract.Claim.PayoutEffects

/-!
# What a step does to the scan

The scan view of a state is where the scan stands, the states of the triggers, and the trace.
`ScanEffect` lists everything a step can do to it, with what the step read. Positions of the scan
from which it has nothing to remember are calm (`ScanPc.isCalm`): a move to one of them is one case,
whatever made the scan go there.

`stepEffects` says that every step of the claim service does one of the listed things to the
payouts (`PayoutEffect`) and one of them to the scan. It is the only place where a step is taken
apart.
-/

namespace Refract.Claim

open Lib
open Refract.Oracle
open ClaimState ClaimEvent

/-- The part of a state that a scan writes on its way to a payout. -/
structure ScanView where
  pc : ScanPc
  triggers : OrdMap String (TriggerKeyState ℚ)
  trace : List ClaimEvent

def ClaimState.scanView (s : ClaimState) : ScanView := ⟨s.scan.pc, s.triggers, s.trace⟩

/-- The scan is between two policies, or about to trip a breaker. -/
def ScanPc.isCalm : ScanPc → Bool
  | .idle | .loop _ | .tripping _ _ _ => true
  | _ => false

/-- The scan awaits a consensus decision. -/
def ScanPc.isDeciding : ScanPc → Bool
  | .deciding _ _ _ _ => true
  | _ => false

/-- The scan awaits its payout, as before up to the program counter of the payout. -/
inductive SamePc : ScanPc → ScanPc → Prop
  | refl (pc : ScanPc) : SamePc pc pc
  | paying (t : TriggeredPolicy) (rest : List StoredPolicy) (frame : PayoutFrame) (pc : PayoutPc) :
      SamePc (.paying t rest frame) (.paying t rest { frame with pc })

/-- Events that no scan logs when it takes a policy, reads its feed or enters a payout. -/
def ClaimEvent.isOffScan : ClaimEvent → Bool
  | .stepStarted .scan _ | .fetched _ _ _ _ | .payoutEntered .scan _ => false
  | _ => true

/-- The consensus decision lets a reading through to the evaluator, and the reading is fresh. -/
def ReachesEvaluator (policy : StoredPolicy) (fetchedAt : Int) (answer : Option ConsensusDecision)
    (now : ℚ) : Prop :=
  (∃ decision ∈ answer, (authorizeSettlement policy
    ((coverageTypeName policy.coverageType).getD "") decision).isOk = true) ∧
    seconds now - fetchedAt ≤ stalenessLimitSeconds

/-- What the step `l` from `s` can do to the scan view. -/
inductive ScanEffect (env : ClaimEnv) (s : ClaimState) (l : ClaimLabel) : ScanView → Prop
  /-- The scan stays where it is while something else happens. -/
  | kept (pc : ScanPc) (triggers : OrdMap String (TriggerKeyState ℚ)) (events : List ClaimEvent)
      (hpc : SamePc s.scan.pc pc) (hevents : ∀ e ∈ events, e.isOffScan)
      (htriggers : triggers = s.triggers ∨ ∃ policyId, triggers = s.triggers.delete policyId) :
      ScanEffect env s l ⟨pc, triggers, s.trace ++ events⟩
  /-- The scan goes to a calm position. -/
  | rested (pc : ScanPc) (events : List ClaimEvent) (hpc : pc.isCalm)
      (hfrom : s.scan.pc.isDeciding = false) (hevents : ∀ e ∈ events, e.isOffScan) :
      ScanEffect env s l ⟨pc, s.triggers, s.trace ++ events⟩
  /-- The scan takes its next policy. -/
  | taken (policy : StoredPolicy) (rest : List StoredPolicy) (fetchedAt : Int)
      (hfrom : s.scan.pc = .loop (policy :: rest))
      (hknown : (coverageTypeName policy.coverageType).isSome) :
      ScanEffect env s l
        ⟨.fetching policy rest fetchedAt, s.triggers, s.trace ++ [.stepStarted .scan policy.id]⟩
  /-- The feed has answered with an anomalous reading. -/
  | anomalous (policy : StoredPolicy) (rest : List StoredPolicy) (fetchedAt : Int)
      (reading : OracleReading) (reasons : List AnomalyReason) (breached : Bool)
      (hfrom : s.scan.pc = .fetching policy rest fetchedAt) :
      ScanEffect env s l ⟨.tripping reading reasons rest, s.triggers,
        s.trace ++ [.fetched policy.id fetchedAt true breached]⟩
  /-- The feed has answered with a reading that is not anomalous, so it is a number. -/
  | read (policy : StoredPolicy) (rest : List StoredPolicy) (fetchedAt : Int)
      (reading : OracleReading) (hfrom : s.scan.pc = .fetching policy rest fetchedAt)
      (hfinite : reading.value.finite?.isSome) :
      ScanEffect env s l ⟨.deciding policy rest fetchedAt reading, s.triggers,
        s.trace ++ [.fetched policy.id fetchedAt false
          (readingBreached policy reading)]⟩
  /-- The reading does not reach the evaluator, or the evaluator throws. -/
  | unevaluated (policy : StoredPolicy) (rest : List StoredPolicy) (fetchedAt : Int)
      (reading : OracleReading) (events : List ClaimEvent) (answer : Option ConsensusDecision)
      (trust : Option FeedTrustState) (now : ℚ)
      (hfrom : s.scan.pc = .deciding policy rest fetchedAt reading)
      (hevents : ∀ e ∈ events, e.isOffScan) (hlabel : l = .decided answer trust now)
      (hwhy : ¬ReachesEvaluator policy fetchedAt answer now ∨ reading.value.finite? = none ∨
        ∃ coverageType e,
          validateTriggerConfig (defaultTriggerConfig coverageType env.triggerOverrides) =
            .error e) :
      ScanEffect env s l ⟨.loop rest, s.triggers, s.trace ++ events⟩
  /-- The evaluator sees the reading; the scan asks for the pause flag when it is triggered. -/
  | evaluated (policy : StoredPolicy) (rest : List StoredPolicy) (fetchedAt : Int)
      (reading : OracleReading) (value : ℚ) (decision : ConsensusDecision)
      (coverageType : Option Nat) (e : Evaluation ℚ) (pc : ScanPc)
      (answer : Option ConsensusDecision) (trust : Option FeedTrustState) (now : ℚ)
      (hfrom : s.scan.pc = .deciding policy rest fetchedAt reading)
      (hlabel : l = .decided answer trust now)
      (hauthorized : (authorizeSettlement policy
        ((coverageTypeName policy.coverageType).getD "") decision).isOk = true)
      (hvalue : reading.value.finite? = some value)
      (heval : evaluate env.pow2 (defaultTriggerConfig coverageType env.triggerOverrides)
        s.triggers policy.id (observationOf policy reading value fetchedAt) = .ok e)
      (hpc : (pc = .loop rest ∧ e.decision.triggered = false) ∨
        ∃ t, pc = .pausing t rest ∧ t.policy = policy ∧ e.decision.triggered = true) :
      ScanEffect env s l
        ⟨pc, e.states, s.trace ++ [.authorized policy.id policy.coverageType decision]⟩
  /-- The type is not paused and the scan enters the payout. -/
  | entered (t : TriggeredPolicy) (rest : List StoredPolicy) (frame : PayoutFrame)
      (hfrom : s.scan.pc = .pausing t rest)
      (hpolicy : frame.policy = scannedPolicy t.policy) :
      ScanEffect env s l ⟨.paying t rest frame, s.triggers,
        s.trace ++ [.pauseAnswered t.policy.id t.policy.coverageType false,
          .payoutEntered .scan t.policy.id]⟩

section StepEffects

variable {env : ClaimEnv} {s s' : ClaimState} {l : ClaimLabel}

/-- A step that logs nothing. -/
theorem ScanEffect.unlogged {pc : ScanPc} {triggers : OrdMap String (TriggerKeyState ℚ)}
    (h : ScanEffect env s l ⟨pc, triggers, s.trace ++ []⟩) :
    ScanEffect env s l ⟨pc, triggers, s.trace⟩ := by
  rwa [List.append_nil] at h

/-- A step that changes nothing of the scan view. -/
theorem ScanEffect.of_scanView_eq (h : s'.scanView = s.scanView) :
    ScanEffect env s l s'.scanView := by
  rw [h]
  exact .unlogged (.kept s.scan.pc s.triggers [] (.refl _) (by simp) (.inl rfl))

theorem scanView_fetched (anomalies : AnomalyHistory) (e : ClaimEvent) (pc : ScanPc) :
    ((({ s with anomalies } : ClaimState).log [e]).setPc pc).scanView =
      ⟨pc, s.triggers, s.trace ++ [e]⟩ := rfl

variable {answer : Option ConsensusDecision} {trust : Option FeedTrustState} {now : ℚ}

/-- What `evaluatePolicy` does, and when. -/
theorem evaluatePolicy_cases (env : ClaimEnv) (s : ClaimState) (policy : StoredPolicy)
    (reading : OracleReading) (fetchedAt : Int) (now : ℚ) :
    (∃ result, s.evaluatePolicy env policy reading fetchedAt now = (s, .ok result) ∧
      result.triggered = false ∧ stalenessLimitSeconds < seconds now - fetchedAt) ∨
    ∃ policyCoverageTypes, (∃ e, s.evaluatePolicy env policy reading fetchedAt now =
          ({ s with policyCoverageTypes }, .error e) ∧
        (reading.value.finite? = none ∨ ∃ coverageType e',
          validateTriggerConfig (defaultTriggerConfig coverageType env.triggerOverrides) =
            .error e')) ∨
      ∃ result value coverageType e, s.evaluatePolicy env policy reading fetchedAt now =
          ({ s with policyCoverageTypes, triggers := e.states }, .ok result) ∧
        reading.value.finite? = some value ∧
        evaluate env.pow2 (defaultTriggerConfig coverageType env.triggerOverrides) s.triggers
          policy.id (observationOf policy reading value fetchedAt) = .ok e ∧
        result.triggered = e.decision.triggered := by
  unfold evaluatePolicy
  dsimp only
  split
  · rename_i hstale
    exact .inl ⟨_, rfl, rfl, hstale⟩
  refine .inr ⟨s.policyCoverageTypes.set policy.id policy.coverageType, ?_⟩
  split
  · rename_i hnone
    exact .inl ⟨_, rfl, .inl hnone⟩
  rename_i value hvalue
  split
  · rename_i e herror
    exact .inl ⟨_, rfl, .inr ⟨_, e, validate_of_evaluate_error herror⟩⟩
  · rename_i e heval
    exact .inr ⟨_, value, _, e, rfl, hvalue, heval, rfl⟩

/-- A payout that moves on leaves the scan where it is. -/
theorem samePc_setFramePc (c : Caller) (pc : PayoutPc) :
    SamePc s.scan.pc (s.setFramePc c pc).scan.pc ∧ (s.setFramePc c pc).triggers = s.triggers ∧
      (s.setFramePc c pc).trace = s.trace := by
  cases c with
  | scan =>
    simp only [setFramePc]
    split
    · rename_i t rest frame hpc
      rw [hpc]
      exact ⟨.paying t rest frame pc, rfl, rfl⟩
    · exact ⟨.refl _, rfl, rfl⟩
  | run =>
    simp only [setFramePc]
    split <;> exact ⟨.refl _, rfl, rfl⟩

/-- A payout that moves on, after the given changes to the triggers and the trace. -/
theorem scanEffect_setFramePc (c : Caller) (pc : PayoutPc) {t : ClaimState}
    (events : List ClaimEvent) (hpc : t.scan.pc = s.scan.pc) (htr : t.trace = s.trace ++ events)
    (hevs : ∀ e ∈ events, e.isOffScan)
    (htrigs : t.triggers = s.triggers ∨ ∃ policyId, t.triggers = s.triggers.delete policyId) :
    ScanEffect env s l (t.setFramePc c pc).scanView := by
  obtain ⟨hsame, htrigs', htr'⟩ := samePc_setFramePc (s := t) c pc
  rw [scanView, htrigs', htr', htr]
  rw [hpc] at hsame
  exact .kept _ _ events hsame hevs htrigs

theorem scanEffect_breaker (breakers : BreakerTable) (e : ClaimEvent) (he : e.isOffScan) :
    ScanEffect env s l (({ s with breakers } : ClaimState).log [e]).scanView := by
  refine .kept _ _ _ (.refl _) ?_ (.inl rfl)
  intro e' he'
  rw [List.mem_singleton.1 he']
  exact he

theorem recordFailure_frame (s : ClaimState) (policy : PayoutPolicy) (reason : String)
    (error : Option String) : (s.recordFailure policy reason error).view = s.view ∧
      (s.recordFailure policy reason error).scanView = s.scanView := by
  simp only [recordFailure]
  split <;> exact ⟨rfl, rfl⟩

/-! ## Steps -/

/-- What a step does to the payouts and to the scan. -/
structure StepEffects (env : ClaimEnv) (s : ClaimState) (l : ClaimLabel) (s' : ClaimState) :
    Prop where
  payout : PayoutEffect env s l s'.view
  scan : ScanEffect env s l s'.scanView

namespace StepEffects

variable {pc : ScanPc}

theorem unchanged (hview : s'.view = s.view) (hscan : s'.scanView = s.scanView) :
    StepEffects env s l s' :=
  ⟨.of_view_eq hview, .of_scanView_eq hscan⟩

/-- A scan without a payout goes to a calm position. -/
theorem rested (pc : ScanPc) (hpc : pc.isCalm)
    (hfrom : s.scan.pc.frame = none ∧ s.scan.pc.isDeciding = false)
    (hview : s'.view = (s.setPc pc).view) (hscan : s'.scanView = ⟨pc, s.triggers, s.trace⟩) :
    StepEffects env s l s' := by
  have hframe : pc.frame = none := by
    cases pc with
    | idle | loop | tripping => rfl
    | fetching | deciding | pausing | paying => cases hpc
  refine ⟨.of_view_eq (hview.trans (view_setPc_of_none hfrom.1 hframe)), ?_⟩
  rw [hscan]
  exact .unlogged (.rested pc [] hpc hfrom.2 (by simp))

/-- A scan ends its payout. -/
theorem scan_left (rest : List StoredPolicy) (hfrom : s.scan.pc.isDeciding = false)
    (hview : s'.view = (s.setPc (.loop rest)).view)
    (hscan : s'.scanView = ⟨.loop rest, s.triggers, s.trace⟩) : StepEffects env s l s' := by
  rw [view_setPc] at hview
  refine ⟨?_, ?_⟩
  · rw [hview]
    exact .left .scan
  · rw [hscan]
    exact .unlogged (.rested _ [] rfl hfrom (by simp))

/-- The task of a run awaits no payout afterwards. -/
theorem run_left {frame : Option PayoutFrame} (runId : String) (hframe : frame = none)
    (hview : s'.view = s.view.setFrame (.run runId) frame) (hscan : s'.scanView = s.scanView) :
    StepEffects env s l s' := by
  refine ⟨?_, .of_scanView_eq hscan⟩
  rw [hview, hframe]
  exact .left (.run runId)

variable {c : Caller}

/-- A payout ends without `settleClaim` having resolved. -/
theorem ended {frame : PayoutFrame} {pc : PayoutPc} (hframe : s.frameOf c = some frame)
    (hpc : pc.isLive = false) : StepEffects env s l (s.setFramePc c pc) := by
  refine ⟨?_, scanEffect_setFramePc c _ [] rfl (by simp) (by simp) (.inl rfl)⟩
  rw [view_setFramePc hframe]
  exact .ended c _ _ hframe hpc

theorem startScan (h : s.startScan now = some s') : StepEffects env s l s' := by
  unfold ClaimState.startScan at h
  split at h
  · rename_i hpc
    cases h
    exact rested (.loop (s.scannable now)) rfl (by rw [hpc]; exact ⟨rfl, rfl⟩) rfl rfl
  · cases h

theorem scanNext (h : s.scanNext now = some s') : StepEffects env s l s' := by
  unfold ClaimState.scanNext at h
  split at h
  · rename_i hpc
    cases h
    exact rested .idle rfl (by rw [hpc]; exact ⟨rfl, rfl⟩) rfl rfl
  · rename_i policy rest hpc
    split at h
    · rename_i hknown
      cases h
      exact ⟨.of_setPc (by rw [hpc]; rfl) rfl rfl (by simp [isQuiet]) rfl,
        .taken policy rest _ hpc hknown⟩
    · cases h
      exact rested (.loop rest) rfl (by rw [hpc]; exact ⟨rfl, rfl⟩) rfl rfl
  · cases h

theorem fetched {answer : Option ClaimState.OracleAnswer} (h : s.fetched env answer now = some s') :
    StepEffects env s l s' := by
  unfold ClaimState.fetched at h
  split at h
  case h_2 => cases h
  rename_i policy rest fetchedAt hpc
  have hfrom : s.scan.pc.frame = none ∧ s.scan.pc.isDeciding = false := by
    rw [hpc]
    exact ⟨rfl, rfl⟩
  split at h
  · cases h
    exact rested (.loop rest) rfl hfrom rfl rfl
  dsimp only at h
  split at h
  · rename_i htrig
    cases h
    refine ⟨.of_setPc hfrom.1 rfl rfl (by simp [isQuiet]) rfl, ?_⟩
    rw [scanView_fetched, htrig]
    exact .anomalous policy rest fetchedAt _ _ _ hpc
  · rename_i htrig
    cases h
    refine ⟨.of_setPc hfrom.1 rfl rfl (by simp [isQuiet]) rfl, ?_⟩
    rw [Bool.not_eq_true] at htrig
    rw [scanView_fetched, htrig]
    refine .read policy rest fetchedAt _ hpc ?_
    obtain ⟨value, hvalue⟩ := finite_of_evaluateAnomaly htrig
    rw [hvalue]
    rfl

variable {dbNow : ℚ}

theorem breakerTripped {opened recorded : Bool}
    (h : s.breakerTripped opened recorded dbNow = some s') :
    StepEffects env s (.breakerTripped opened recorded dbNow) s' := by
  unfold ClaimState.breakerTripped at h
  split at h
  case h_2 => cases h
  rename_i reading reasons rest hpc
  have hfrom : s.scan.pc.frame = none ∧ s.scan.pc.isDeciding = false := by
    rw [hpc]
    exact ⟨rfl, rfl⟩
  split at h
  · rename_i hopened
    subst hopened
    dsimp only at h
    split at h
    · have hopen : PayoutEffect env s (.breakerTripped true recorded dbNow) _ :=
        .opened reading reasons rest recorded dbNow hpc rfl
      have hrested : ScanEffect env s (.breakerTripped true recorded dbNow)
          ⟨.loop rest, s.triggers, s.trace ++ [ClaimEvent.breakerOpened reading.coverageType]⟩ :=
        .rested _ _ rfl hfrom.2 (by simp [isOffScan])
      split at h
      · cases h
        refine ⟨?_, hrested⟩
        rw [view_setPc_of_none (by exact hfrom.1) rfl]
        exact hopen
      · cases h
        refine ⟨?_, hrested⟩
        rw [view_caught_of_none (by exact hfrom.1) rest]
        exact hopen
    · cases h
      exact rested (.loop rest) rfl hfrom rfl rfl
  · cases h
    exact rested (.loop rest) rfl hfrom rfl rfl

theorem decided (h : s.decided env answer trust now = some s') :
    StepEffects env s (.decided answer trust now) s' := by
  unfold ClaimState.decided at h
  split at h
  case h_2 => cases h
  rename_i policy rest fetchedAt reading hpc
  have hframe : s.scan.pc.frame = none := by rw [hpc]; rfl
  split at h
  · -- Consensus threw.
    cases h
    refine ⟨.of_view_eq (view_caught_of_none hframe rest), .unlogged
      (.unevaluated policy rest fetchedAt reading [] _ _ _ hpc (by simp) rfl (.inl ?_))⟩
    rintro ⟨⟨decision, hdec, -⟩, -⟩
    cases hdec
  rename_i decision
  split at h
  · -- The decision does not authorize a payout.
    rename_i reason hunauth
    cases h
    refine ⟨.of_view_eq (view_setPc_of_none hframe rfl), .unlogged
      (.unevaluated policy rest fetchedAt reading [] _ _ _ hpc (by simp) rfl (.inl ?_))⟩
    rintro ⟨⟨d, hd, hok⟩, -⟩
    cases hd
    rw [hunauth] at hok
    cases hok
  rename_i authorization hauth
  have hok : (authorizeSettlement policy ((coverageTypeName policy.coverageType).getD "")
      decision).isOk = true := by
    rw [hauth]
    rfl
  have hoff : ∀ e ∈ [ClaimEvent.authorized policy.id policy.coverageType decision],
      e.isOffScan := by simp [isOffScan]
  have hquiet : ∀ e ∈ [ClaimEvent.authorized policy.id policy.coverageType decision],
      e.isQuiet := by simp [isQuiet]
  dsimp only at h
  rcases evaluatePolicy_cases env
      (s.log [.authorized policy.id policy.coverageType decision]) policy reading fetchedAt
      now with
    ⟨result, heq, htrig, hstale⟩ | ⟨types, ⟨e, heq, hwhy⟩ |
      ⟨result, value, coverageType, e, heq, hvalue, heval, htrig⟩⟩
  all_goals rw [heq] at h
  · have hleft : ScanEffect env s (.decided (some decision) trust now) ⟨.loop rest, s.triggers,
        s.trace ++ [.authorized policy.id policy.coverageType decision]⟩ := by
      refine .unevaluated policy rest fetchedAt reading _ _ _ _ hpc hoff rfl (.inl ?_)
      rintro ⟨-, hfresh⟩
      omega
    simp only [htrig, Bool.false_eq_true, if_false] at h
    split at h
    · cases h
      exact emitAdjudication_elim (P := fun t => StepEffects env s _ (t.setPc (.loop rest)))
        fun _ => ⟨.of_setPc hframe rfl rfl hquiet rfl, hleft⟩
    · cases h
      exact ⟨.of_setPc hframe rfl rfl hquiet rfl, hleft⟩
  · cases h
    exact ⟨.of_setPc hframe rfl rfl hquiet rfl,
      .unevaluated policy rest fetchedAt reading _ _ _ _ hpc hoff rfl (.inr hwhy)⟩
  · have hleft : ∀ pc, ((pc = ScanPc.loop rest ∧ e.decision.triggered = false) ∨
        ∃ t, pc = .pausing t rest ∧ t.policy = policy ∧ e.decision.triggered = true) →
        ScanEffect env s (.decided (some decision) trust now)
          ⟨pc, e.states, s.trace ++ [.authorized policy.id policy.coverageType decision]⟩ := by
      intro pc hpc'
      exact .evaluated policy rest fetchedAt reading value decision coverageType e pc _ _ _
        hpc rfl hok hvalue heval hpc'
    dsimp only at h
    split at h
    · rename_i hresult
      cases h
      exact ⟨.of_setPc hframe rfl rfl hquiet rfl, hleft _ (.inr ⟨_, rfl, rfl, htrig ▸ hresult⟩)⟩
    rename_i hresult
    rw [Bool.not_eq_true, htrig] at hresult
    split at h
    · cases h
      exact emitAdjudication_elim (P := fun t => StepEffects env s _ (t.setPc (.loop rest)))
        fun _ => ⟨.of_setPc hframe rfl rfl hquiet rfl, hleft _ (.inl ⟨rfl, hresult⟩)⟩
    · cases h
      exact ⟨.of_setPc hframe rfl rfl hquiet rfl, hleft _ (.inl ⟨rfl, hresult⟩)⟩

theorem pauseAnswered {answer : Option Bool} (h : s.pauseAnswered env answer = some s') :
    StepEffects env s (.pauseAnswered answer) s' := by
  unfold ClaimState.pauseAnswered at h
  split at h
  case h_2 => cases h
  rename_i t rest hpc
  have hfrom : s.scan.pc.frame = none ∧ s.scan.pc.isDeciding = false := by
    rw [hpc]
    exact ⟨rfl, rfl⟩
  split at h
  · cases h
    exact rested (.loop rest) rfl hfrom rfl rfl
  rename_i paused
  have hquiet : ∀ e ∈ [ClaimEvent.pauseAnswered t.policy.id t.policy.coverageType paused],
      e.isQuiet := by simp [isQuiet]
  have hrested : ScanEffect env s (.pauseAnswered (some paused)) ⟨.loop rest, s.triggers,
      s.trace ++ [ClaimEvent.pauseAnswered t.policy.id t.policy.coverageType paused]⟩ :=
    .rested _ _ rfl hfrom.2 (by simp [isOffScan])
  split at h
  · cases h
    exact ⟨.of_setPc hfrom.1 rfl rfl hquiet rfl, hrested⟩
  rename_i hpaused
  split at h
  · cases h
    exact emitAdjudication_elim (P := fun t => StepEffects env s _ (t.setPc (.loop rest)))
      fun _ => ⟨.of_setPc hfrom.1 rfl rfl hquiet rfl, hrested⟩
  rename_i hheld
  cases h
  rw [Bool.not_eq_true] at hpaused
  subst hpaused
  refine ⟨?_, ?_⟩
  · rw [view_setPc, view_log, view_log, PayoutView.log_log]
    refine .entered .scan _ _ hquiet ?_ hfrom.1 rfl
    simp only [entering, hpc, if_neg hheld]
    rfl
  · have hentered : ScanEffect env s (.pauseAnswered (some false)) _ :=
      .entered t rest (newFrame (scannedPolicy t.policy) t.result (some t.authorization)) hpc rfl
    simpa [scanView, setPc, log] using hentered

theorem breakerRead {readable : Bool} (h : s.breakerRead c readable = some s') :
    StepEffects env s (.breakerRead c readable) s' := by
  unfold ClaimState.breakerRead at h
  split at h
  · rename_i policy result authorization hframe
    cases h
    refine ⟨?_, scanEffect_setFramePc c _ [] rfl (by simp) (by simp) (.inl rfl)⟩
    rw [view_setFramePc hframe]
    exact .answered c ⟨policy, result, authorization, .queryingBreaker⟩ readable hframe rfl rfl
  · cases h

theorem payoutResumed {gate : ClaimState.GateAnswer} (h : s.payoutResumed c gate = some s') :
    StepEffects env s (.payoutResumed c gate) s' := by
  unfold ClaimState.payoutResumed at h
  split at h
  case h_2 => cases h
  rename_i policy result authorization allowed hframe
  split at h
  · cases h
    exact ended hframe rfl
  rename_i hallow
  rw [Bool.not_eq_false] at hallow
  subst hallow
  cases gate with
  | block | threw =>
    cases h
    exact ended hframe rfl
  | proceed holdId =>
    cases h
    refine ⟨?_, scanEffect_setFramePc c _ _ rfl rfl (by simp [isOffScan]) (.inl rfl)⟩
    have hlogged : (s.log [.settleCalled c policy.id policy.coverageType]).frameOf c =
        some ⟨policy, result, authorization, .breakerAnswered true⟩ := by
      cases c <;> exact hframe
    rw [view_setFramePc hlogged, view_log]
    exact .called c ⟨policy, result, authorization, .breakerAnswered true⟩ holdId hframe rfl rfl

theorem settleAnswered {answer : ClaimState.SettleAnswer}
    (h : s.settleAnswered c answer = some s') :
    StepEffects env s (.settleAnswered c answer) s' := by
  unfold ClaimState.settleAnswered at h
  split at h
  case h_2 => cases h
  rename_i policy result authorization holdId hframe
  cases answer with
  | threw =>
    cases h
    exact ended hframe rfl
  | failed error =>
    cases h
    obtain ⟨hview, hscan⟩ := recordFailure_frame (s.log [.settleResolved policy.id false]) policy
      result.reason error
    have hkept : ((s.log [.settleResolved policy.id false]).recordFailure policy result.reason
        error).frameOf c = some ⟨policy, result, authorization, .settling holdId⟩ := by
      rw [← hframe]
      exact congrFun (congrArg PayoutView.frames hview) c
    refine ⟨?_, scanEffect_setFramePc c _ [.settleResolved policy.id false]
      (congrArg ScanView.pc hscan) (congrArg ScanView.trace hscan)
      (by simp [isOffScan]) (.inl (congrArg ScanView.triggers hscan))⟩
    rw [view_setFramePc hkept, hview]
    exact .failed c ⟨policy, result, authorization, .settling holdId⟩ holdId _ _ hframe rfl rfl rfl
  | settled txHash =>
    cases h
    refine ⟨?_, scanEffect_setFramePc c _ _ rfl rfl (by simp [isOffScan])
      (.inr ⟨policy.id, rfl⟩)⟩
    have hkept : ((s.log [.settleResolved policy.id true]).recordSettlement policy
        (settledResult ⟨policy, result, authorization, .settling holdId⟩
          txHash)).frameOf c = some ⟨policy, result, authorization, .settling holdId⟩ := hframe
    rw [view_setFramePc hkept]
    exact .settled c ⟨policy, result, authorization, .settling holdId⟩ holdId _ hframe rfl
  | unmarked message =>
    obtain ⟨-, ⟨⟩⟩ := Option.ite_none_left_eq_some.1 h
    refine ⟨?_, scanEffect_setFramePc c _ _ rfl rfl (by simp [isOffScan]) (.inl rfl)⟩
    have hkept : (s.log [.settleResolved policy.id true]).frameOf c =
        some ⟨policy, result, authorization, .settling holdId⟩ := by
      cases c <;> exact hframe
    rw [view_setFramePc hkept, view_log]
    exact .failed c ⟨policy, result, authorization, .settling holdId⟩ holdId _ _ hframe rfl rfl rfl

theorem scanPaid (h : s.scanPaid env = some s') : StepEffects env s l s' := by
  unfold ClaimState.scanPaid at h
  split at h
  · rename_i rest _ _ _ _ hpc
    split at h
    · cases h
      exact emitAdjudication_elim (P := fun t => StepEffects env s l (t.setPc (.loop rest)))
        fun _ => scan_left rest (by rw [hpc]; rfl) rfl rfl
    · cases h
      exact scan_left _ (by rw [hpc]; rfl) rfl rfl
  case h_4 => cases h
  all_goals
    rename_i hpc
    cases h
    exact scan_left _ (by rw [hpc]; rfl) rfl rfl

variable {runId : String}

theorem applyStarted {actor : String} {maxItems : Int}
    (h : s.applyStarted runId actor now maxItems = some s') : StepEffects env s l s' := by
  unfold ClaimState.applyStarted at h
  split at h
  · rename_i run hrun
    split at h
    · cases h
    cases h
    exact run_left runId rfl
      (view_setApply s runId ⟨run.plan.items, 0, maxItems, actor, now, none⟩) rfl
  · cases h

theorem applyNext (h : s.applyNext runId now = some s') :
    StepEffects env s (.applyNext runId now) s' := by
  unfold ClaimState.applyNext at h
  split at h
  case h_2 => cases h
  rename_i remaining processed maxItems actor startedAt run htask hrun
  split at h
  · cases h
    exact run_left runId rfl (view_deleteApply s runId) rfl
  · rename_i item state rest hnext
    cases h
    exact setItem_elim (P := fun t => StepEffects env s _ { t with applies := _ })
      fun _ => run_left runId rfl (view_setApply s runId _) rfl
  · rename_i item rest hnext
    cases h
    refine ⟨?_, .kept _ _ _ (.refl _) (by simp [isOffScan]) (.inl rfl)⟩
    have hview := view_setApply (s.log [.stepStarted (.run runId) item.policyId,
      .payoutEntered (.run runId) item.policyId]) runId
      ⟨rest, processed + 1, maxItems, actor, startedAt, some (item, newFrame
        (itemPolicy item) (reevaluationResult item runId now) none)⟩
    have henter : PayoutEffect env s (.applyNext runId now) _ :=
      .entered (.run runId) (newFrame (itemPolicy item) (reevaluationResult item runId now) none)
        [.stepStarted (.run runId) item.policyId] (by simp [isQuiet])
        (by simp only [entering, htask, hrun, hnext]; rfl)
        (by simp [frameOf, htask, ApplyTask.frame]) rfl
    exact hview ▸ henter

theorem applyPaid (h : s.applyPaid runId = some s') : StepEffects env s l s' := by
  unfold ClaimState.applyPaid at h
  split at h
  · rename_i remaining processed maxItems actor startedAt item frame htask
    have hview := view_setApply s runId ⟨remaining, processed, maxItems, actor, startedAt, none⟩
    split at h
    case h_4 => cases h
    all_goals
      cases h
      exact setItem_elim fun _ => run_left runId rfl hview rfl
  · cases h

variable {coverageType : String}

theorem halfOpenBreaker (h : claimStep env s (.halfOpenBreaker coverageType now dbNow) = some s') :
    StepEffects env s l s' := by
  simp only [claimStep, Option.some.injEq] at h
  split at h
  · rename_i hchg
    subst h
    exact ⟨.halfOpened coverageType now dbNow hchg, scanEffect_breaker _ _ rfl⟩
  · subst h
    exact unchanged rfl rfl

theorem closeBreaker (h : claimStep env s (.closeBreaker coverageType) = some s') :
    StepEffects env s l s' := by
  simp only [claimStep, Option.some.injEq] at h
  split at h
  · rename_i hchg
    subst h
    exact ⟨.closed coverageType hchg, scanEffect_breaker _ _ rfl⟩
  · subst h
    exact unchanged rfl rfl

end StepEffects

/-- Every step of the claim service does one of the listed things to the payouts and to the scan. -/
theorem stepEffects (h : ClaimSteps env s l s') : StepEffects env s l s' := by
  cases l with
  | startScan => exact .startScan h
  | scanNext => exact .scanNext h
  | fetched => exact .fetched h
  | breakerTripped => exact .breakerTripped h
  | decided => exact .decided h
  | pauseAnswered => exact .pauseAnswered h
  | breakerRead => exact .breakerRead h
  | payoutResumed => exact .payoutResumed h
  | settleAnswered => exact .settleAnswered h
  | scanPaid => exact .scanPaid h
  | applyPaid => exact .applyPaid h
  | applyStarted => exact .applyStarted h
  | applyNext => exact .applyNext h
  | onVerdict | onTrustTransition =>
    cases h
    exact .unchanged rfl rfl
  | plan =>
    cases h
    unfold replanned
    split <;> exact .unchanged rfl rfl
  | halfOpenBreaker => exact .halfOpenBreaker h
  | closeBreaker => exact .closeBreaker h

end StepEffects

end Refract.Claim
