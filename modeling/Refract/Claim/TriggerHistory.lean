import Mathlib.Data.List.Infix
import Refract.Lib.Runs
import Refract.Claim.TriggerStability
import Refract.Lib.Traces

/-!
# Histories of one trigger

What the guards of the evaluator mean for a whole sequence of `evaluate` calls on one key
(`stable_history`): the condition turns on at the end of a run of accepted observations past the
threshold and off at the end of a run of recovered ones, each long enough in number and in time;
nothing changes while the key is suppressed; two changes are more than the dwell time apart; and an
observation that is not newer than the last accepted one changes nothing.

The invariant (`Recalls`) ties the candidate of the state to the run of observations it stands for,
which begins after every change so far.
-/

namespace Refract.Claim

open Lib List

/-! ## Sequences of calls -/

section Calls

variable {K : Type} [Field K] [LinearOrder K]

/-- An observation as it comes in: a number that is not finite is `none`. -/
structure RawObservation (K : Type) where
  value : Option K
  threshold : Option K
  direction : TriggerDirection
  observedAt : Option K

/-- The observation, if all its numbers are finite. -/
def RawObservation.finite? (raw : RawObservation K) : Option (TriggerObservation K) :=
  match raw.value, raw.threshold, raw.observedAt with
  | some value, some threshold, some observedAt =>
    some { value, threshold, direction := raw.direction, observedAt }
  | _, _, _ => none

/-- `evaluate` on any observation: one with a number that is not finite is refused. -/
def evaluateRaw (pow2 : K → K) (config : TriggerStabilityConfig K)
    (states : OrdMap String (TriggerKeyState K)) (key : String) (raw : RawObservation K) :
    Except JsError (Evaluation K) := do
  validateTriggerConfig config
  match raw.finite? with
  | none => .error (.error ("Non-finite trigger observation for " ++ key))
  | some obs => evaluate pow2 config states key obs

/-- A call that returned: its observation, the state of the key before and after, the decision. -/
structure Visit (K : Type) where
  obs : TriggerObservation K
  before : TriggerKeyState K
  after : TriggerKeyState K
  decision : TriggerDecision K

/-- The evaluator and the calls on one key that have returned. -/
structure TriggerRun (K : Type) where
  states : OrdMap String (TriggerKeyState K)
  visits : List (Visit K)

/-- One more call. A call that throws leaves the evaluator as it is. -/
def TriggerRun.call (pow2 : K → K) (config : TriggerStabilityConfig K) (key : String)
    (run : TriggerRun K) (raw : RawObservation K) : TriggerRun K :=
  match evaluateRaw pow2 config run.states key raw, raw.finite? with
  | .ok e, some obs =>
    { states := e.states
      visits := run.visits ++
        [⟨obs, stateOf run.states key, stateOf e.states key, e.decision⟩] }
  | _, _ => run

/-- A sequence of calls on one key of a fresh evaluator. -/
def callAll (pow2 : K → K) (config : TriggerStabilityConfig K) (key : String)
    (raws : List (RawObservation K)) : TriggerRun K :=
  raws.foldl (TriggerRun.call pow2 config key) ⟨OrdMap.empty, []⟩

/-! ## The property -/

/-- The observations that were accepted, oldest first. -/
def acceptedIn (visits : List (Visit K)) : List (TriggerObservation K) :=
  (visits.filter (·.decision.accepted)).map (·.obs)

/-- The outcome after the calls; at first the condition is not met. -/
def outcomeAfter (visits : List (Visit K)) : Bool :=
  (visits.getLast?.map (·.decision.triggered)).getD false

/-- The observations end with a run of observations that all satisfy `side`: at least
`minConfirmations` of them, the first and the last at least `minDwellMs` apart. -/
def EndsRun (config : TriggerStabilityConfig K) (side : TriggerObservation K → Bool)
    (accepted : List (TriggerObservation K)) : Prop :=
  ∃ run first last, run <:+ accepted ∧ (∀ o ∈ run, side o = true) ∧
    config.minConfirmations ≤ run.length ∧ run.head? = some first ∧
    run.getLast? = some last ∧ config.minDwellMs ≤ last.observedAt - first.observedAt

/-- What one call does, given the calls before it. -/
structure StableVisit (config : TriggerStabilityConfig K) (v : Visit K)
    (earlier : List (Visit K)) : Prop where
  outcome : v.decision.changed = (v.decision.triggered != outcomeAfter earlier)
  met : v.decision.changed = true → v.decision.triggered = true → v.decision.accepted = true ∧
    EndsRun config (·.breached) (acceptedIn (earlier ++ [v]))
  cleared : v.decision.changed = true → v.decision.triggered = false →
    v.decision.accepted = true ∧
      EndsRun config (·.recovered config.hysteresis) (acceptedIn (earlier ++ [v]))
  unsuppressed : v.decision.changed = true →
    v.after.suppressed = false ∧ v.decision.suppressed = false
  apart : v.decision.changed = true → ∀ u ∈ earlier, u.decision.changed = true →
    config.minDwellMs < v.obs.observedAt - u.obs.observedAt
  ignored : ∀ last, (acceptedIn earlier).getLast? = some last →
    v.obs.observedAt ≤ last.observedAt → v.after = v.before ∧ v.decision.accepted = false

/-! ## The invariant -/

/-- The candidate of a key stands for the run of observations at the end of the accepted ones, which
begins after every change. -/
def Pursues (config : TriggerStabilityConfig K) (confirmed : Bool) (visits : List (Visit K))
    (accepted : List (TriggerObservation K)) (since : Option K) (count : Nat) : Prop :=
  ∃ run first, run <:+ accepted ∧ (∀ o ∈ run, o.opposes config confirmed = true) ∧
    count ≤ run.length ∧ run.head? = some first ∧ since = some first.observedAt ∧
    ∀ u ∈ visits, u.decision.changed = true → u.obs.observedAt < first.observedAt

/-- What the state of the key knows about the calls so far. -/
structure Recalls (config : TriggerStabilityConfig K) (visits : List (Visit K))
    (s : TriggerKeyState K) : Prop where
  outcome : outcomeAfter visits = isConfirmed s.phase
  last : s.lastObservedAt = (acceptedIn visits).getLast?.map (·.observedAt)
  changes : ∀ u ∈ visits, u.decision.changed = true →
    ∃ last, s.lastObservedAt = some last ∧ u.obs.observedAt ≤ last
  candidate : s.phase = candidatePhase (isConfirmed s.phase) →
    Pursues config (isConfirmed s.phase) visits (acceptedIn visits) s.candidateSince
      s.candidateCount

variable {config : TriggerStabilityConfig K} {visits : List (Visit K)} {s : TriggerKeyState K}
  {obs : TriggerObservation K}

omit [Field K] [LinearOrder K] in
theorem acceptedIn_snoc_accepted {v : Visit K} (h : v.decision.accepted = true) :
    acceptedIn (visits ++ [v]) = acceptedIn visits ++ [v.obs] := by
  simp [acceptedIn, filter_append, h]

omit [Field K] [LinearOrder K] in
theorem acceptedIn_snoc_ignored {v : Visit K} (h : v.decision.accepted = false) :
    acceptedIn (visits ++ [v]) = acceptedIn visits := by
  simp [acceptedIn, filter_append, h]

omit [Field K] [LinearOrder K] in
theorem outcomeAfter_snoc (visits : List (Visit K)) (v : Visit K) :
    outcomeAfter (visits ++ [v]) = v.decision.triggered := by
  simp [outcomeAfter]

theorem recalls_initialState : Recalls config [] (initialState : TriggerKeyState K) where
  outcome := rfl
  last := rfl
  changes u hu := nomatch hu
  candidate hph := by cases hph

omit [Field K] [LinearOrder K] in
theorem last_lt_of_isNewer {last : K} [LinearOrder K] (hnewer : isNewer s obs = true)
    (hlast : s.lastObservedAt = some last) : last < obs.observedAt := by
  simp only [isNewer, hlast] at hnewer
  exact of_decide_eq_true hnewer

/-- An observation on the other side starts a run, or adds to the one the state stands for. -/
theorem Recalls.pursues (h : Recalls config visits s) (hnewer : isNewer s obs = true)
    (hside : obs.opposes config (isConfirmed s.phase) = true) {since : Option K} {count : Nat}
    (hcand : Candidate s obs.observedAt since count) :
    Pursues config (isConfirmed s.phase) visits (acceptedIn visits ++ [obs]) since count := by
  rcases hcand with ⟨-, hsince, hcnt⟩ | ⟨hph, hsince, hcnt⟩
  · refine ⟨[obs], obs, suffix_append _ _, ?_, hcnt.le, rfl, hsince, ?_⟩
    · exact forall_mem_singleton.2 hside
    · intro u hu hchg
      obtain ⟨last, hlast, hle⟩ := h.changes u hu hchg
      exact hle.trans_lt (last_lt_of_isNewer hnewer hlast)
  · obtain ⟨run, first, ⟨before, hbef⟩, hall, hlen, hfst, hfirstSince, hchanges⟩ :=
      h.candidate hph
    refine ⟨run ++ [obs], first, ⟨before, by rw [← append_assoc, hbef]⟩, ?_, ?_, ?_,
      hsince.trans hfirstSince, hchanges⟩
    · exact forall_mem_snoc.2 ⟨hall, hside⟩
    · rw [length_append, length_singleton, hcnt]
      exact Nat.succ_le_succ hlen
    · rw [head?_append, hfst]
      rfl

/-- A candidate that has met its dwell ends a run. -/
theorem Pursues.endsRun {confirmed : Bool} {since : K} {count : Nat}
    {accepted : List (TriggerObservation K)}
    (h : Pursues config confirmed visits (accepted ++ [obs]) (some since) count)
    (hcnt : config.minConfirmations ≤ count) (hdwell : config.minDwellMs ≤ obs.observedAt - since) :
    EndsRun config (·.opposes config confirmed) (accepted ++ [obs]) := by
  obtain ⟨run, first, hsuffix, hall, hlen, hfst, hsince, -⟩ := h
  obtain rfl : since = first.observedAt := Option.some.inj hsince
  exact ⟨run, first, obs, hsuffix, hall, hcnt.trans (by exact_mod_cast hlen), hfst,
    getLast?_of_suffix_snoc hsuffix hfst, hdwell⟩

/-- A call that is no change leaves the run of a candidate alone. -/
theorem Pursues.snoc {confirmed : Bool} {since : Option K} {count : Nat} {v : Visit K}
    {accepted : List (TriggerObservation K)}
    (h : Pursues config confirmed visits accepted since count)
    (hunch : v.decision.changed = false) :
    Pursues config confirmed (visits ++ [v]) accepted since count := by
  obtain ⟨run, first, hsuffix, hall, hlen, hfst, hsince, hbegins⟩ := h
  refine ⟨run, first, hsuffix, hall, hlen, hfst, hsince, forall_mem_snoc.2 ⟨hbegins, ?_⟩⟩
  simp [hunch]

/-! ## One call -/

/-- The visit is a call of the evaluator in the state `s` of the key. -/
structure VisitIn (pow2 : K → K) (config : TriggerStabilityConfig K) (s : TriggerKeyState K)
    (v : Visit K) : Prop where
  before : v.before = s
  after : v.after = observe pow2 config s v.obs
  triggered : v.decision.triggered = isConfirmed v.after.phase
  suppressed : v.decision.suppressed = v.after.suppressed
  accepted : v.decision.accepted = isNewer s v.obs
  changed : v.decision.changed = (isConfirmed s.phase != isConfirmed v.after.phase)

variable {pow2 : K → K} {v : Visit K}

section

variable (h : Recalls config visits s) (hv : VisitIn pow2 config s v)

include h hv

/-- A call that is no change. -/
theorem StableVisit.of_unchanged (hsame : isConfirmed v.after.phase = isConfirmed s.phase)
    (hignored : ∀ last, s.lastObservedAt = some last → v.obs.observedAt ≤ last →
      v.after = v.before ∧ v.decision.accepted = false) : StableVisit config v visits := by
  have hunch : v.decision.changed = false := by
    rw [hv.changed, hsame, bne_self_eq_false]
  refine ⟨?_, ?_, ?_, ?_, ?_, ?_⟩
  · rw [hunch, hv.triggered, h.outcome, hsame, bne_self_eq_false]
  all_goals try
    intro hchg
    exact absurd (hunch.symm.trans hchg) Bool.false_ne_true
  · intro last hlast hle
    exact hignored _ (by rw [h.last, hlast]; rfl) hle

/-- An observation that is not newer changes nothing. -/
theorem Recalls.ignore (hold : isNewer s v.obs = false) :
    StableVisit config v visits ∧ Recalls config (visits ++ [v]) v.after := by
  have hafter : v.after = s := by
    rw [hv.after, observe, hold]
    rfl
  have hrej : v.decision.accepted = false := hv.accepted.trans hold
  have hunch : v.decision.changed = false := by
    rw [hv.changed, hafter, bne_self_eq_false]
  refine ⟨.of_unchanged h hv (by rw [hafter]) fun _ _ _ =>
    ⟨hafter.trans hv.before.symm, hrej⟩, ?_⟩
  rw [hafter]
  -- The new call adds neither an accepted observation nor a change.
  refine ⟨?_, ?_, forall_mem_snoc.2 ⟨h.changes, by simp [hunch]⟩, ?_⟩
  · rw [outcomeAfter_snoc, hv.triggered, hafter]
  · rw [acceptedIn_snoc_ignored hrej]
    exact h.last
  · intro hph
    rw [acceptedIn_snoc_ignored hrej]
    exact (h.candidate hph).snoc hunch

/-- What the state knows after an accepted observation, but for its candidate. -/
theorem Recalls.accept
    (hnewer : isNewer s v.obs = true) (hlast : v.after.lastObservedAt = some v.obs.observedAt)
    (hcand : v.after.phase = candidatePhase (isConfirmed v.after.phase) →
      Pursues config (isConfirmed v.after.phase) (visits ++ [v]) (acceptedIn visits ++ [v.obs])
        v.after.candidateSince v.after.candidateCount) :
    Recalls config (visits ++ [v]) v.after := by
  have hacc := @acceptedIn_snoc_accepted K visits v (hv.accepted.trans hnewer)
  refine ⟨?_, ?_, ?_, ?_⟩
  · rw [outcomeAfter_snoc, hv.triggered]
  · rw [hacc, hlast]
    simp
  · intro u hu hchg
    refine ⟨_, hlast, ?_⟩
    rcases mem_snoc.1 hu with hu | rfl
    · obtain ⟨last, hold, hle⟩ := h.changes u hu hchg
      exact hle.trans (last_lt_of_isNewer hnewer hold).le
    · exact le_rfl
  · rw [hacc]
    exact hcand

end

end Calls

section History

variable {K : Type} [Field K] [LinearOrder K] [IsStrictOrderedRing K]
  {config : TriggerStabilityConfig K} {visits : List (Visit K)} {s : TriggerKeyState K}
  {pow2 : K → K} {v : Visit K}

/-- A change ends a run that begins after every earlier change. -/
theorem StableVisit.of_changed (h : Recalls config visits s) (hv : VisitIn pow2 config s v)
    (hnewer : isNewer s v.obs = true) {since : K} {count : Nat}
    (hpursues : Pursues config (isConfirmed s.phase) visits (acceptedIn visits ++ [v.obs])
      (some since) count) (hcnt : config.minConfirmations ≤ count)
    (hdwell : config.minDwellMs ≤ v.obs.observedAt - since) (hunsup : v.after.suppressed = false)
    (hconf : isConfirmed v.after.phase = !isConfirmed s.phase) : StableVisit config v visits := by
  have hacc : v.decision.accepted = true := hv.accepted.trans hnewer
  have hchg : v.decision.changed = true := by
    rw [hv.changed, hconf]
    cases isConfirmed s.phase <;> rfl
  have hrun := hpursues.endsRun hcnt hdwell
  rw [← acceptedIn_snoc_accepted hacc] at hrun
  refine ⟨?_, ?_, ?_, ?_, ?_, ?_⟩
  · rw [hchg, hv.triggered, h.outcome, hconf]
    cases isConfirmed s.phase <;> rfl
  · intro _ hmet
    rw [hv.triggered, hconf, Bool.not_eq_true_eq_eq_false] at hmet
    rw [hmet] at hrun
    exact ⟨hacc, hrun⟩
  · intro _ hcleared
    rw [hv.triggered, hconf, Bool.not_eq_false_eq_eq_true] at hcleared
    rw [hcleared] at hrun
    exact ⟨hacc, hrun⟩
  · intro _
    exact ⟨hunsup, hv.suppressed.trans hunsup⟩
  · intro _ u hu huChanged
    obtain ⟨run, first, -, -, -, -, hsince, hbegins⟩ := hpursues
    obtain rfl : since = first.observedAt := Option.some.inj hsince
    linarith [hbegins u hu huChanged]
  · intro last hlast hle
    have hlt := last_lt_of_isNewer hnewer (by rw [h.last, hlast]; rfl)
    exact absurd hle (not_le.2 hlt)

/-- One call keeps the invariant and is stable. -/
theorem Recalls.visit (h : Recalls config visits s) (hv : VisitIn pow2 config s v) :
    StableVisit config v visits ∧ Recalls config (visits ++ [v]) v.after := by
  cases hnewer : isNewer s v.obs with
  | false => exact h.ignore hv hnewer
  | true =>
    obtain ⟨hlast, hstep⟩ := observeStep_of_newer hnewer
    rw [← hv.after] at hlast hstep
    have hignored : ∀ last, s.lastObservedAt = some last → v.obs.observedAt ≤ last →
        v.after = v.before ∧ v.decision.accepted = false :=
      fun last hold hle => absurd hle (not_le.2 (last_lt_of_isNewer hnewer hold))
    cases hstep with
    | settled hph =>
      refine ⟨.of_unchanged h hv (by rw [hph, isConfirmed_restPhase]) hignored,
        h.accept hv hnewer hlast ?_⟩
      intro hcand
      exact absurd (hph.symm.trans hcand) (restPhase_ne_candidatePhase _ _)
    | pursued hside hcand hph =>
      have hsame : isConfirmed v.after.phase = isConfirmed s.phase := by
        rw [hph, isConfirmed_candidatePhase]
      refine ⟨.of_unchanged h hv hsame hignored, h.accept hv hnewer hlast ?_⟩
      intro _
      rw [hsame]
      refine (h.pursues hnewer hside hcand).snoc ?_
      rw [hv.changed, hsame, bne_self_eq_false]
    | changed _ _ hside hcand hcnt hdwell hunsup hph =>
      refine ⟨.of_changed h hv hnewer (h.pursues hnewer hside hcand) hcnt hdwell
        hunsup (by rw [hph, isConfirmed_restPhase]), h.accept hv hnewer hlast ?_⟩
      intro hcandidatePhase
      exact absurd (hph.symm.trans hcandidatePhase) (restPhase_ne_candidatePhase _ _)

/-! ## All calls -/

omit [IsStrictOrderedRing K] in
/-- With a valid configuration a call on finite numbers returns, and a call on other numbers leaves
the evaluator as it is. -/
theorem TriggerRun.call_eq (hval : validateTriggerConfig config = .ok ()) (key : String)
    (run : TriggerRun K) (raw : RawObservation K) :
    (raw.finite? = none ∧ run.call pow2 config key raw = run) ∨
      ∃ v, raw.finite? = some v.obs ∧ VisitIn pow2 config (stateOf run.states key) v ∧
        (run.call pow2 config key raw).visits = run.visits ++ [v] ∧
        stateOf (run.call pow2 config key raw).states key = v.after := by
  simp only [TriggerRun.call, evaluateRaw, hval, exceptOk_bind]
  cases hraw : raw.finite? with
  | none => exact .inl ⟨rfl, rfl⟩
  | some obs =>
    right
    obtain ⟨e, heval⟩ := @evaluate_returns K _ _ pow2 config hval run.states key obs
    have hspec := evaluate_ok heval
    simp only [heval]
    exact ⟨⟨obs, stateOf run.states key, stateOf e.states key, e.decision⟩, rfl,
      ⟨rfl, hspec.state, hspec.triggered, hspec.suppressed, hspec.accepted, hspec.changed⟩,
      rfl, rfl⟩

/-- In every sequence of calls on one key of a fresh evaluator with a valid configuration, every
call on finite numbers returns, and every one is stable. -/
theorem stable_history (pow2 : K → K) (config : TriggerStabilityConfig K)
    (hvalid : validateTriggerConfig config = .ok ()) (key : String)
    (raws : List (RawObservation K)) :
    (callAll pow2 config key raws).visits.map (·.obs) = raws.filterMap (·.finite?) ∧
      PrecededBy (StableVisit config) (callAll pow2 config key raws).visits := by
  -- The calls come one after another, so the induction takes the last one off.
  have hinvariant : (callAll pow2 config key raws).visits.map (·.obs) = raws.filterMap (·.finite?) ∧
      PrecededBy (StableVisit config) (callAll pow2 config key raws).visits ∧
      Recalls config (callAll pow2 config key raws).visits
        (stateOf (callAll pow2 config key raws).states key) := by
    induction raws using List.reverseRecOn with
    | nil => exact ⟨rfl, PrecededBy.nil _, recalls_initialState⟩
    | append_singleton raws raw ih =>
      obtain ⟨hobs, hstable, hrecalls⟩ := ih
      have hsnoc : callAll pow2 config key (raws ++ [raw]) =
          (callAll pow2 config key raws).call pow2 config key raw := by
        rw [callAll, foldl_append]
        rfl
      rw [hsnoc, filterMap_append]
      rcases TriggerRun.call_eq hvalid key (callAll pow2 config key raws) raw with
        ⟨hnone, hcall⟩ | ⟨v, hsome, hv, hvisits, hstate⟩
      · rw [hcall]
        exact ⟨by simp [hobs, hnone], hstable, hrecalls⟩
      · obtain ⟨hvisit, hnext⟩ := hrecalls.visit hv
        rw [hvisits, hstate]
        exact ⟨by simp [hobs, hsome], hstable.snoc v hvisit, hnext⟩
  exact ⟨hinvariant.1, hinvariant.2.1⟩

end History

/-! ## A depeg and its recovery -/

/-- Two observations a minute apart confirm a change. -/
def minuteConfig : TriggerStabilityConfig ℚ where
  hysteresis := 5 / 1000
  minDwellMs := 60000
  minConfirmations := 2
  flap := defaultFlapDamping

/-- A reading of a stablecoin feed against a threshold of 0.95. -/
def depegReading (value : ℚ) (observedAt : ℚ) : RawObservation ℚ :=
  ⟨some value, some (95 / 100), .below, some observedAt⟩

/-- A depeg that lasts, with an old reading and one that is no number in between, and a recovery. -/
def depegReadings : List (RawObservation ℚ) :=
  [depegReading (94 / 100) 0, depegReading (99 / 100) 0,
    ⟨none, some (95 / 100), .below, some 30000⟩, depegReading (93 / 100) 60000,
    depegReading (952 / 1000) 120000, depegReading (97 / 100) 180000,
    depegReading (98 / 100) 240000]

theorem stable_history_depegReadings :
    PrecededBy (StableVisit minuteConfig)
      (callAll (fun _ => 1) minuteConfig "usdc" depegReadings).visits ∧
    (callAll (fun _ => 1) minuteConfig "usdc" depegReadings).visits.map
        (fun v => (v.obs.observedAt, v.decision.accepted, v.decision.triggered)) =
      [(0, true, false), (0, false, false), (60000, true, true), (120000, true, true),
        (180000, true, true), (240000, true, false)] :=
  ⟨(stable_history (fun _ => 1) minuteConfig (by decide +kernel) "usdc" depegReadings).2,
    by decide +kernel⟩

end Refract.Claim
