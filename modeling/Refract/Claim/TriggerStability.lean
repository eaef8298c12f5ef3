import Refract.Lib.Ecma
import Refract.Lib.OrdMap

/-!
# Debounced threshold triggers

`TriggerStabilityEvaluator` of `trigger-stability.ts`: hysteresis, minimum dwell and flap damping
between a raw threshold comparison and a confirmed condition. The arithmetic is over any linearly
ordered field `K`; the penalty decays by `Math.pow(2, x)`, a parameter `pow2`.

One observation does three things to the state of a key, each a definition of its own: it charges
the flap penalty (`chargeFlap`), it advances the phase (`advancePhase`), and it gives the decision
(`decisionOf`).
-/

namespace Refract.Claim

open Lib

inductive TriggerDirection where
  | below
  | above

/-- Phase of one debounced trigger. -/
inductive TriggerPhase where
  | clear
  | arming
  | triggered
  | disarming
  deriving DecidableEq, Repr

structure FlapDampingConfig (K : Type) where
  penaltyPerFlip : K
  suppressAbove : K
  reuseBelow : K
  halfLifeMs : K
  maxPenalty : K

structure TriggerStabilityConfig (K : Type) where
  hysteresis : K
  minDwellMs : K
  minConfirmations : Int
  flap : FlapDampingConfig K

structure TriggerObservation (K : Type) where
  value : K
  threshold : K
  direction : TriggerDirection
  observedAt : K

structure TriggerKeyState (K : Type) where
  phase : TriggerPhase
  candidateSince : Option K
  candidateCount : Nat
  confirmedAt : Option K
  lastRawBreached : Option Bool
  penalty : K
  suppressed : Bool
  lastObservedAt : Option K
  flips : Nat

/-- The reason given with a decision, with the numbers its text shows. -/
inductive TriggerReason (K : Type) where
  | ignored
  | notBreached
  | breachWaiting (count : Nat) (minConfirmations : Int) (elapsed minDwellMs : K)
  | breachSuppressed (penalty : K)
  | breachConfirmed
  | breached
  | withinBand
  | recoveryWaiting
  | recoverySuppressed (penalty : K)
  | recoveryConfirmed

structure TriggerDecision (K : Type) where
  triggered : Bool
  phase : TriggerPhase
  suppressed : Bool
  penalty : K
  confirmedAt : Option K
  changed : Bool
  accepted : Bool
  reason : TriggerReason K

/-- Whether an emitted event is a transition or one that damping held back. -/
inductive TransitionKind where
  | transition
  | suppressed

structure TriggerTransitionEvent (K : Type) where
  key : String
  kind : TransitionKind
  source : TriggerPhase
  target : TriggerPhase
  atTime : K
  observation : TriggerObservation K
  hysteresis : K
  penalty : K
  flips : Nat
  candidateSince : Option K
  reason : TriggerReason K

section Evaluator

variable {K : Type} [Field K] [LinearOrder K]

/-- The state of a key that has never been observed. -/
def initialState : TriggerKeyState K where
  phase := .clear
  candidateSince := none
  candidateCount := 0
  confirmedAt := none
  lastRawBreached := none
  penalty := 0
  suppressed := false
  lastObservedAt := none
  flips := 0

def isConfirmed : TriggerPhase → Bool
  | .triggered | .disarming => true
  | .clear | .arming => false

/-- The raw comparison: is the value past the threshold? -/
def TriggerObservation.breached (obs : TriggerObservation K) : Bool :=
  match obs.direction with
  | .below => decide (obs.value < obs.threshold)
  | .above => decide (obs.threshold < obs.value)

/-- The exit level for hysteresis: past the threshold by the band. -/
def TriggerObservation.recovered (obs : TriggerObservation K) (hysteresis : K) : Bool :=
  match obs.direction with
  | .below => decide (obs.threshold + hysteresis ≤ obs.value)
  | .above => decide (obs.value ≤ obs.threshold - hysteresis)

def validateTriggerConfig (config : TriggerStabilityConfig K) : Except JsError Unit :=
  if config.hysteresis < 0 then .error (.error "hysteresis must be a finite number >= 0")
  else if config.minDwellMs < 0 then .error (.error "minDwellMs must be >= 0")
  else if config.minConfirmations < 1 then
    .error (.error "minConfirmations must be an integer >= 1")
  else if config.flap.halfLifeMs ≤ 0 then .error (.error "flap.halfLifeMs must be > 0")
  else if config.flap.penaltyPerFlip < 0 then .error (.error "flap.penaltyPerFlip must be >= 0")
  else if ¬(0 < config.flap.reuseBelow ∧ config.flap.reuseBelow < config.flap.suppressAbove) then
    .error (.error "flap.reuseBelow must be > 0 and < flap.suppressAbove")
  else if config.flap.maxPenalty < config.flap.suppressAbove then
    .error (.error "flap.maxPenalty must be >= flap.suppressAbove")
  else .ok ()

/-- The penalty after decay and the charge for a raw threshold crossing, and what it suppresses. -/
def chargeFlap (pow2 : K → K) (flap : FlapDampingConfig K) (prev : TriggerKeyState K)
    (obs : TriggerObservation K) : TriggerKeyState K :=
  let decayed := match prev.lastObservedAt with
    | none => prev.penalty
    | some last => prev.penalty * pow2 (-(obs.observedAt - last) / flap.halfLifeMs)
  let crossed : Bool := match prev.lastRawBreached with
    | none => false
    | some last => obs.breached != last
  let penalty := if crossed then min flap.maxPenalty (decayed + flap.penaltyPerFlip) else decayed
  { prev with
    flips := if crossed then prev.flips + 1 else prev.flips
    penalty
    lastRawBreached := some obs.breached
    lastObservedAt := some obs.observedAt
    suppressed :=
      if prev.suppressed then !decide (penalty < flap.reuseBelow)
      else decide (flap.suppressAbove < penalty) }

/-- The candidate has stayed long enough, over enough observations. -/
def dwellMet (config : TriggerStabilityConfig K) (s : TriggerKeyState K) (observedAt : K) : Bool :=
  match s.candidateSince with
  | none => false
  | some since =>
    decide (config.minConfirmations ≤ s.candidateCount) &&
      decide (config.minDwellMs ≤ observedAt - since)

/-- The state with a candidate for the other side: a new one, or one observation more. -/
def pursue (start candidate : TriggerPhase) (s : TriggerKeyState K) (observedAt : K) :
    TriggerKeyState K :=
  if s.phase = start then
    { s with phase := candidate, candidateSince := some observedAt, candidateCount := 1 }
  else { s with candidateCount := s.candidateCount + 1 }

/-- The state without a candidate. -/
def settleIn (phase : TriggerPhase) (s : TriggerKeyState K) : TriggerKeyState K :=
  { s with phase, candidateSince := none, candidateCount := 0 }

/-- The next phase, the reason, and whether damping held a change back. -/
def advancePhase (config : TriggerStabilityConfig K) (s : TriggerKeyState K)
    (obs : TriggerObservation K) : TriggerKeyState K × TriggerReason K × Bool :=
  if isConfirmed s.phase then
    if obs.recovered config.hysteresis = false then
      (settleIn .triggered s, if obs.breached then .breached else .withinBand, false)
    else
      let c := pursue .triggered .disarming s obs.observedAt
      if dwellMet config c obs.observedAt = false then (c, .recoveryWaiting, false)
      else if c.suppressed then (c, .recoverySuppressed c.penalty, true)
      else ({ settleIn .clear c with confirmedAt := none }, .recoveryConfirmed, false)
  else
    if obs.breached = false then (settleIn .clear s, .notBreached, false)
    else
      let c := pursue .clear .arming s obs.observedAt
      if dwellMet config c obs.observedAt = false then
        (c, .breachWaiting c.candidateCount config.minConfirmations
          (obs.observedAt - c.candidateSince.getD obs.observedAt) config.minDwellMs, false)
      else if c.suppressed then (c, .breachSuppressed c.penalty, true)
      else
        ({ settleIn .triggered c with confirmedAt := some obs.observedAt }, .breachConfirmed, false)

/-- The decision read off a state. -/
def decisionOf (s : TriggerKeyState K) (accepted changed : Bool) (reason : TriggerReason K) :
    TriggerDecision K where
  triggered := isConfirmed s.phase
  phase := s.phase
  suppressed := s.suppressed
  penalty := s.penalty
  confirmedAt := if isConfirmed s.phase then s.confirmedAt else none
  changed
  accepted
  reason

/-- An observation at or before the last accepted one is ignored. -/
def isNewer (prev : TriggerKeyState K) (obs : TriggerObservation K) : Bool :=
  match prev.lastObservedAt with
  | none => true
  | some last => decide (last < obs.observedAt)

/-- The effect of one observation on the state of its key. -/
def observe (pow2 : K → K) (config : TriggerStabilityConfig K) (prev : TriggerKeyState K)
    (obs : TriggerObservation K) : TriggerKeyState K :=
  if isNewer prev obs then (advancePhase config (chargeFlap pow2 config.flap prev obs) obs).1
  else prev

/-- The event emitted on a change of the confirmed outcome, or on one held back by damping. -/
def transitionEvent (key : String) (config : TriggerStabilityConfig K) (prev s : TriggerKeyState K)
    (obs : TriggerObservation K) (reason : TriggerReason K) (suppressedChange : Bool) :
    Option (TriggerTransitionEvent K) :=
  let changed := isConfirmed prev.phase != isConfirmed s.phase
  if changed || suppressedChange then
    some
      { key
        kind := if changed then .transition else .suppressed
        source := prev.phase
        target := if changed then s.phase
          else if isConfirmed prev.phase then .clear else .triggered
        atTime := obs.observedAt
        observation := obs
        hysteresis := config.hysteresis
        penalty := s.penalty
        flips := s.flips
        candidateSince := prev.candidateSince
        reason }
  else none

/-- What a call of `evaluate` leaves and returns. -/
structure Evaluation (K : Type) where
  states : OrdMap String (TriggerKeyState K)
  decision : TriggerDecision K
  event : Option (TriggerTransitionEvent K)

/-- `TriggerStabilityEvaluator.evaluate`. -/
def evaluate (pow2 : K → K) (config : TriggerStabilityConfig K)
    (states : OrdMap String (TriggerKeyState K)) (key : String) (obs : TriggerObservation K) :
    Except JsError (Evaluation K) := do
  validateTriggerConfig config
  let prev := (states.get? key).getD initialState
  if isNewer prev obs then
    let (s, reason, suppressedChange) :=
      advancePhase config (chargeFlap pow2 config.flap prev obs) obs
    .ok
      { states := states.set key s
        decision := decisionOf s true (isConfirmed prev.phase != isConfirmed s.phase) reason
        event := transitionEvent key config prev s obs reason suppressedChange }
  else .ok { states, decision := decisionOf prev false false .ignored, event := none }

variable {pow2 : K → K} {config : TriggerStabilityConfig K}
  {states : OrdMap String (TriggerKeyState K)} {key : String} {obs : TriggerObservation K}

/-- The evaluator throws on an invalid configuration only. -/
theorem validate_of_evaluate_error {e : JsError}
    (h : evaluate pow2 config states key obs = .error e) :
    validateTriggerConfig config = .error e := by
  unfold evaluate at h
  cases hval : validateTriggerConfig config with
  | error e' =>
    rw [hval] at h
    cases h
    rfl
  | ok =>
    rw [hval] at h
    simp only [exceptOk_bind] at h
    split at h <;> cases h

/-! ## What one observation can do -/

/-- The phase of a key without a candidate. -/
def restPhase : Bool → TriggerPhase
  | false => .clear
  | true => .triggered

/-- The phase of a key with a candidate for the other side. -/
def candidatePhase : Bool → TriggerPhase
  | false => .arming
  | true => .disarming

/-- The observation lies on the other side: past the threshold when the condition is not met,
recovered past the band when it is. -/
def TriggerObservation.opposes (obs : TriggerObservation K) (config : TriggerStabilityConfig K)
    (confirmed : Bool) : Bool :=
  if confirmed then obs.recovered config.hysteresis else obs.breached

/-- The candidate after an observation on the other side: a new one, or one observation more. -/
def Candidate (prev : TriggerKeyState K) (time : K) (since : Option K) (count : Nat) : Prop :=
  prev.phase = restPhase (isConfirmed prev.phase) ∧ since = some time ∧ count = 1 ∨
    prev.phase = candidatePhase (isConfirmed prev.phase) ∧ since = prev.candidateSince ∧
      count = prev.candidateCount + 1

/-- What a new observation can do to the phase of its key. -/
inductive ObserveStep (config : TriggerStabilityConfig K) (prev : TriggerKeyState K)
    (obs : TriggerObservation K) (next : TriggerKeyState K) : Prop where
  | settled (hphase : next.phase = restPhase (isConfirmed prev.phase))
  | pursued (hside : obs.opposes config (isConfirmed prev.phase) = true)
      (hcandidate : Candidate prev obs.observedAt next.candidateSince next.candidateCount)
      (hphase : next.phase = candidatePhase (isConfirmed prev.phase))
  | changed (since : K) (count : Nat)
      (hside : obs.opposes config (isConfirmed prev.phase) = true)
      (hcandidate : Candidate prev obs.observedAt (some since) count)
      (hcount : config.minConfirmations ≤ count)
      (hdwell : config.minDwellMs ≤ obs.observedAt - since)
      (hunsuppressed : next.suppressed = false)
      (hphase : next.phase = restPhase (!isConfirmed prev.phase))

omit [Field K] [LinearOrder K] in
theorem phase_cases (s : TriggerKeyState K) :
    s.phase = restPhase (isConfirmed s.phase) ∨ s.phase = candidatePhase (isConfirmed s.phase) := by
  cases s.phase with
  | clear | triggered => exact .inl rfl
  | arming | disarming => exact .inr rfl

@[simp] theorem isConfirmed_restPhase (confirmed : Bool) :
    isConfirmed (restPhase confirmed) = confirmed := by
  cases confirmed <;> rfl

@[simp] theorem isConfirmed_candidatePhase (confirmed : Bool) :
    isConfirmed (candidatePhase confirmed) = confirmed := by
  cases confirmed <;> rfl

theorem restPhase_ne_candidatePhase (a b : Bool) : restPhase a ≠ candidatePhase b := by
  cases a <;> cases b <;> decide

variable {c : TriggerKeyState K}

omit [Field K] [LinearOrder K] in
theorem candidate_pursue (s : TriggerKeyState K) (time : K)
    (hc : pursue (restPhase (isConfirmed s.phase)) (candidatePhase (isConfirmed s.phase)) s time =
      c) :
    Candidate s time c.candidateSince c.candidateCount ∧
      c.phase = candidatePhase (isConfirmed s.phase) ∧ c.lastObservedAt = s.lastObservedAt := by
  subst hc
  simp only [pursue]
  split
  · rename_i hrest
    exact ⟨.inl ⟨hrest, rfl, rfl⟩, rfl, rfl⟩
  · rename_i hrest
    have hcand := (phase_cases s).resolve_left hrest
    exact ⟨.inr ⟨hcand, rfl, rfl⟩, hcand, rfl⟩

/-- A candidate that has met its dwell. -/
theorem dwellMet_eq_true {s : TriggerKeyState K} {observedAt : K}
    (h : dwellMet config s observedAt = true) :
    ∃ since, s.candidateSince = some since ∧ config.minConfirmations ≤ s.candidateCount ∧
      config.minDwellMs ≤ observedAt - since := by
  simp only [dwellMet] at h
  split at h
  · cases h
  rename_i since hsince
  simp only [Bool.and_eq_true, decide_eq_true_eq] at h
  exact ⟨since, hsince, h⟩

/-- The next state, with the two sides of the trigger as one argument. -/
theorem advancePhase_fst (config : TriggerStabilityConfig K) (s : TriggerKeyState K)
    (obs : TriggerObservation K) {confirmed : Bool} (hconf : isConfirmed s.phase = confirmed)
    (hc : pursue (restPhase confirmed) (candidatePhase confirmed) s obs.observedAt = c) :
    (advancePhase config s obs).1 =
      if obs.opposes config confirmed = false then settleIn (restPhase confirmed) s
      else if dwellMet config c obs.observedAt = false then c
      else if c.suppressed then c
      else { settleIn (restPhase !confirmed) c with
        confirmedAt := if confirmed then none else some obs.observedAt } := by
  subst hc
  cases confirmed with
  | false =>
    simp only [advancePhase, hconf, TriggerObservation.opposes, restPhase, candidatePhase,
      Bool.false_eq_true, if_false, Bool.not_false, apply_ite Prod.fst]
  | true =>
    simp only [advancePhase, hconf, TriggerObservation.opposes, restPhase, candidatePhase,
      if_true, Bool.not_true, apply_ite Prod.fst]

variable {prev : TriggerKeyState K}

/-- The effect of a new observation. -/
theorem observeStep_of_newer (hnewer : isNewer prev obs = true) :
    (observe pow2 config prev obs).lastObservedAt = some obs.observedAt ∧
      ObserveStep config prev obs (observe pow2 config prev obs) := by
  -- Charging the penalty leaves the phase and the candidate alone.
  obtain ⟨s, hs, hcand, hph, hlast⟩ : ∃ s, chargeFlap pow2 config.flap prev obs = s ∧
      (∀ time since count, Candidate s time since count → Candidate prev time since count) ∧
      s.phase = prev.phase ∧ s.lastObservedAt = some obs.observedAt :=
    ⟨_, rfl, fun _ _ _ h => h, rfl, rfl⟩
  rw [observe, if_pos hnewer, hs]
  obtain ⟨c, hc⟩ : ∃ c, pursue (restPhase (isConfirmed s.phase))
      (candidatePhase (isConfirmed s.phase)) s obs.observedAt = c := ⟨_, rfl⟩
  obtain ⟨hpursued, hpursuedPhase, hpursuedLast⟩ := candidate_pursue s obs.observedAt hc
  rw [advancePhase_fst config s obs rfl hc]
  rw [hph] at hpursuedPhase ⊢
  split
  · exact ⟨hlast, .settled rfl⟩
  rename_i hside
  rw [Bool.not_eq_false] at hside
  split
  · exact ⟨hpursuedLast.trans hlast, .pursued hside (hcand _ _ _ hpursued) hpursuedPhase⟩
  rename_i hdwell
  rw [Bool.not_eq_false] at hdwell
  split
  · exact ⟨hpursuedLast.trans hlast, .pursued hside (hcand _ _ _ hpursued) hpursuedPhase⟩
  rename_i hsupp
  obtain ⟨since, hsince, hcnt, hspan⟩ := dwellMet_eq_true hdwell
  rw [hsince] at hpursued
  exact ⟨hpursuedLast.trans hlast, .changed since c.candidateCount hside
    (hcand _ _ _ hpursued) hcnt hspan (Bool.eq_false_iff.2 hsupp) rfl⟩

/-- A confirmation time is that of the observation, or the one before. -/
theorem confirmedAt_observe {time : K}
    (h : (observe pow2 config prev obs).confirmedAt = some time) :
    time = obs.observedAt ∨ prev.confirmedAt = some time := by
  simp only [observe] at h
  split at h
  · rw [advancePhase_fst config _ obs rfl rfl] at h
    have hpursue : ∀ start candidate, (pursue start candidate (chargeFlap pow2 config.flap prev obs)
        obs.observedAt).confirmedAt = prev.confirmedAt := by
      intro start candidate
      simp only [pursue]
      split <;> rfl
    split at h
    · exact .inr h
    split at h
    · exact .inr ((hpursue _ _).symm.trans h)
    split at h
    · exact .inr ((hpursue _ _).symm.trans h)
    split at h
    · cases h
    · exact .inl (Option.some.inj h).symm
  · exact .inr h

/-- With a valid configuration the evaluator returns. -/
theorem evaluate_returns (hval : validateTriggerConfig config = .ok ())
    (states : OrdMap String (TriggerKeyState K)) (key : String) (obs : TriggerObservation K) :
    ∃ e, evaluate pow2 config states key obs = .ok e := by
  cases heval : evaluate pow2 config states key obs with
  | ok e => exact ⟨e, rfl⟩
  | error =>
    have herror := validate_of_evaluate_error heval
    rw [hval] at herror
    cases herror

/-! ## Calls of the evaluator -/

/-- The state of a key. -/
def stateOf (states : OrdMap String (TriggerKeyState K)) (key : String) : TriggerKeyState K :=
  (states.get? key).getD initialState

/-- What a call of `evaluate` leaves and returns: it observes for its key and leaves the other keys
alone, and its decision is read off the states of the key before and after. -/
structure Evaluates (pow2 : K → K) (config : TriggerStabilityConfig K)
    (states : OrdMap String (TriggerKeyState K)) (key : String) (obs : TriggerObservation K)
    (e : Evaluation K) : Prop where
  state : stateOf e.states key = observe pow2 config (stateOf states key) obs
  others : ∀ other, other ≠ key → stateOf e.states other = stateOf states other
  triggered : e.decision.triggered = isConfirmed (stateOf e.states key).phase
  suppressed : e.decision.suppressed = (stateOf e.states key).suppressed
  confirmedAt : e.decision.confirmedAt =
    if isConfirmed (stateOf e.states key).phase then (stateOf e.states key).confirmedAt else none
  accepted : e.decision.accepted = isNewer (stateOf states key) obs
  changed : e.decision.changed =
    (isConfirmed (stateOf states key).phase != isConfirmed (stateOf e.states key).phase)

theorem evaluate_ok {e : Evaluation K} (h : evaluate pow2 config states key obs = .ok e) :
    Evaluates pow2 config states key obs e := by
  simp only [evaluate] at h
  obtain ⟨-, -, h⟩ := exceptBind_eq_ok h
  split at h
  · rename_i hnewer
    cases h
    have hself : ∀ s : TriggerKeyState K, stateOf (states.set key s) key = s := by
      simp [stateOf]
    have hobs : observe pow2 config (stateOf states key) obs =
        (advancePhase config (chargeFlap pow2 config.flap (stateOf states key) obs) obs).1 :=
      if_pos hnewer
    refine ⟨?_, ?_, ?_, ?_, ?_, hnewer.symm, ?_⟩
    · rw [hobs]
      exact hself _
    · intro other hoth
      simp only [stateOf, OrdMap.get?_set_of_ne hoth]
    all_goals
      rw [hself]
      rfl
  · rename_i hnewer
    cases h
    rw [Bool.not_eq_true] at hnewer
    refine ⟨?_, fun _ _ => rfl, rfl, rfl, rfl, hnewer.symm, by simp [decisionOf]⟩
    exact (if_neg (Bool.eq_false_iff.1 hnewer)).symm

end Evaluator

/-- The text of a reason. -/
def TriggerReason.text (host : Host) : TriggerReason ℚ → String
  | .ignored => "ignored: observation not newer than last accepted one"
  | .notBreached => "threshold not breached"
  | .breachWaiting count minConfirmations elapsed minDwellMs =>
    "threshold breached; waiting for dwell (" ++ toString count ++ "/" ++
      toString minConfirmations ++ " observations, " ++ host.numberToString elapsed ++ "/" ++
      host.numberToString minDwellMs ++ "ms)"
  | .breachSuppressed penalty =>
    "threshold breached and dwell met, but trigger is suppressed for flapping (penalty " ++
      toString (mathRound penalty) ++ ")"
  | .breachConfirmed => "threshold breach confirmed"
  | .breached => "threshold breached"
  | .withinBand => "within hysteresis band; condition stays met"
  | .recoveryWaiting => "recovered past hysteresis band; waiting for dwell before clearing"
  | .recoverySuppressed penalty =>
    "recovered and dwell met, but clearing is suppressed for flapping (penalty " ++
      toString (mathRound penalty) ++ ")"
  | .recoveryConfirmed => "recovery confirmed; condition cleared"

/-! ## Defaults -/

def defaultFlapDamping : FlapDampingConfig ℚ where
  penaltyPerFlip := 1000
  suppressAbove := 3000
  reuseBelow := 750
  halfLifeMs := 15 * 60000
  maxPenalty := 6000

/-- Hysteresis band by coverage type. -/
def defaultHysteresisByCoverageType : Nat → Option ℚ
  | 0 => some (5 / 1000)
  | 1 => some 1
  | 2 => some (2 / 100)
  | 3 => some 1
  | 4 => some 10
  | _ => none

/-- The dwell and confirmation overrides read from the environment. -/
structure TriggerOverrides where
  minDwellMs : Option ℚ
  minConfirmations : Option Int

/-- The configuration of a coverage type; a type that is not known has no band. -/
def defaultTriggerConfig (coverageType : Option Nat) (overrides : TriggerOverrides) :
    TriggerStabilityConfig ℚ where
  hysteresis := (coverageType.bind defaultHysteresisByCoverageType).getD 0
  minDwellMs := overrides.minDwellMs.getD (5 * 60000)
  minConfirmations := overrides.minConfirmations.getD 2
  flap := defaultFlapDamping

theorem defaultHysteresis_nonneg (coverageType : Option Nat) :
    0 ≤ (coverageType.bind defaultHysteresisByCoverageType).getD 0 := by
  cases coverageType with
  | none => exact le_refl _
  | some =>
    simp only [Option.bind_some]
    unfold defaultHysteresisByCoverageType
    split <;> norm_num

/-- The default configuration passes its own check, with any sensible overrides. -/
theorem defaultTriggerConfig_valid (coverageType : Option Nat) (overrides : TriggerOverrides)
    (hdwell : ∀ d ∈ overrides.minDwellMs, 0 ≤ d)
    (hconfs : ∀ n ∈ overrides.minConfirmations, 1 ≤ n) :
    validateTriggerConfig (defaultTriggerConfig coverageType overrides) = .ok () := by
  have hband : 0 ≤ (defaultTriggerConfig coverageType overrides).hysteresis :=
    defaultHysteresis_nonneg coverageType
  have hdwell' : 0 ≤ (defaultTriggerConfig coverageType overrides).minDwellMs := by
    unfold defaultTriggerConfig
    cases hd : overrides.minDwellMs with
    | none => norm_num
    | some d => exact hdwell d hd
  have hconfs' : 1 ≤ (defaultTriggerConfig coverageType overrides).minConfirmations := by
    unfold defaultTriggerConfig
    cases hn : overrides.minConfirmations with
    | none => norm_num
    | some n => exact hconfs n hn
  unfold validateTriggerConfig
  rw [if_neg (not_lt.2 hband), if_neg (not_lt.2 hdwell'), if_neg (not_lt.2 hconfs')]
  norm_num [defaultTriggerConfig, defaultFlapDamping]

end Refract.Claim
