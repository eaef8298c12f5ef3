import Mathlib.Analysis.SpecialFunctions.Log.Base
import Refract.Claim.TriggerHistory

/-!
# Flap damping ends

The penalty of a key over the reals, where it decays by powers of two. It never leaves
`[0, maxPenalty]`, and it has its bound from the last raw threshold crossing: `maxPenalty`, halved
once in every half-life since (`Damped`). So an observation that is accepted more than
`maxSuppressionMs` after the last crossing finds the key released (`suppression_ends`).
-/

namespace Refract.Claim

open Lib List

/-- `maxSuppressionMs`: worst-case time a key stays suppressed after it stops flapping. -/
noncomputable def maxSuppressionMs (flap : FlapDampingConfig ℝ) : ℝ :=
  flap.halfLifeMs * Real.logb (2 : ℕ) (flap.maxPenalty / flap.reuseBelow)

/-- Of two accepted observations in a row, the second one at time `t`, one is past the threshold. -/
def CrossedAt (accepted : List (TriggerObservation ℝ)) (t : ℝ) : Prop :=
  ∃ before first second after, accepted = before ++ first :: second :: after ∧
    second.breached ≠ first.breached ∧ second.observedAt = t

/-- What a call leaves of the penalty, given the calls before it. -/
structure DampedVisit (flap : FlapDampingConfig ℝ) (v : Visit ℝ) (earlier : List (Visit ℝ)) :
    Prop where
  bounds : 0 ≤ v.after.penalty ∧ v.after.penalty ≤ flap.maxPenalty
  released : v.decision.accepted = true →
    (∀ t, CrossedAt (acceptedIn (earlier ++ [v])) t →
      maxSuppressionMs flap < v.obs.observedAt - t) →
    v.after.suppressed = false ∧ v.decision.suppressed = false

/-! ## The bound on the penalty -/

/-- What is left of the largest penalty after some time. -/
noncomputable def decayedMax (flap : FlapDampingConfig ℝ) (elapsed : ℝ) : ℝ :=
  flap.maxPenalty * ((2 : ℕ) : ℝ) ^ (-elapsed / flap.halfLifeMs)

/-- The penalty of a key and the observations it has accepted. -/
structure Damped (flap : FlapDampingConfig ℝ) (accepted : List (TriggerObservation ℝ))
    (s : TriggerKeyState ℝ) : Prop where
  last : s.lastObservedAt = accepted.getLast?.map (·.observedAt)
  raw : s.lastRawBreached = accepted.getLast?.map (·.breached)
  nonneg : 0 ≤ s.penalty
  le : s.penalty ≤ flap.maxPenalty
  decayed : s.penalty = 0 ∨ ∃ t last, CrossedAt accepted t ∧ s.lastObservedAt = some last ∧
    s.penalty ≤ decayedMax flap (last - t)
  suppressed : s.suppressed = true → flap.reuseBelow ≤ s.penalty

/-- The bounds that a valid configuration puts on its damping. -/
structure ValidFlap (flap : FlapDampingConfig ℝ) : Prop where
  halfLife : 0 < flap.halfLifeMs
  perFlip : 0 ≤ flap.penaltyPerFlip
  reuse : 0 < flap.reuseBelow
  reuse_lt : flap.reuseBelow < flap.suppressAbove
  suppress_le : flap.suppressAbove ≤ flap.maxPenalty

variable {config : TriggerStabilityConfig ℝ} {flap : FlapDampingConfig ℝ}
  {accepted : List (TriggerObservation ℝ)} {s : TriggerKeyState ℝ} {obs : TriggerObservation ℝ}

theorem validFlap_of_validate (h : validateTriggerConfig config = .ok ()) :
    ValidFlap config.flap := by
  simp only [validateTriggerConfig] at h
  split_ifs at h with hband hdwell hcnt hlife hflip hreuse hmax
  exact ⟨not_le.1 hlife, not_lt.1 hflip, hreuse.1, hreuse.2, not_lt.1 hmax⟩

theorem ValidFlap.maxPenalty_pos (h : ValidFlap flap) : 0 < flap.maxPenalty :=
  h.reuse.trans (h.reuse_lt.trans_le h.suppress_le)

theorem CrossedAt.snoc {t : ℝ} (h : CrossedAt accepted t) (obs : TriggerObservation ℝ) :
    CrossedAt (accepted ++ [obs]) t := by
  obtain ⟨before, first, second, after, rfl, hcrossed⟩ := h
  exact ⟨before, first, second, after ++ [obs], by simp, hcrossed⟩

theorem crossedAt_snoc {last : TriggerObservation ℝ} (hlast : accepted.getLast? = some last)
    (hcrossed : obs.breached ≠ last.breached) : CrossedAt (accepted ++ [obs]) obs.observedAt := by
  obtain ⟨before, rfl⟩ := getLast?_eq_some_iff.1 hlast
  exact ⟨before, last, obs, [], by simp, hcrossed, rfl⟩

theorem decayedMax_zero : decayedMax flap 0 = flap.maxPenalty := by
  simp [decayedMax]

/-- Decay over one stretch of time and then another. -/
theorem decayedMax_add (a b : ℝ) :
    decayedMax flap a * 2 ^ (-b / flap.halfLifeMs) = decayedMax flap (a + b) := by
  rw [decayedMax, decayedMax, Nat.cast_ofNat, mul_assoc, ← Real.rpow_add two_pos, neg_add, add_div]

/-- After the longest suppression the largest penalty is below the reuse limit. -/
theorem decayedMax_lt (h : ValidFlap flap) {elapsed : ℝ}
    (helapsed : maxSuppressionMs flap < elapsed) : decayedMax flap elapsed < flap.reuseBelow := by
  have hratio : 0 < flap.maxPenalty / flap.reuseBelow := div_pos h.maxPenalty_pos h.reuse
  have hexp : -elapsed / flap.halfLifeMs < -Real.logb 2 (flap.maxPenalty / flap.reuseBelow) := by
    rw [neg_div, neg_lt_neg_iff, lt_div_iff₀ h.halfLife, mul_comm]
    exact helapsed
  calc decayedMax flap elapsed
      < flap.maxPenalty * 2 ^ (-Real.logb 2 (flap.maxPenalty / flap.reuseBelow)) :=
        mul_lt_mul_of_pos_left (Real.rpow_lt_rpow_of_exponent_lt one_lt_two hexp) h.maxPenalty_pos
    _ = flap.maxPenalty * (flap.maxPenalty / flap.reuseBelow)⁻¹ := by
        rw [Real.rpow_neg two_pos.le, Real.rpow_logb two_pos (by norm_num) hratio]
    _ = flap.reuseBelow := by
        rw [inv_div, mul_div_cancel₀ _ h.maxPenalty_pos.ne']

/-- A suppressed key has been charged within the longest suppression. -/
theorem Damped.released (hflap : ValidFlap flap) (h : Damped flap (accepted ++ [obs]) s)
    (hlate : ∀ t, CrossedAt (accepted ++ [obs]) t → maxSuppressionMs flap < obs.observedAt - t) :
    s.suppressed = false := by
  by_contra hsupp
  have hreuse := h.suppressed (Bool.eq_true_of_not_eq_false hsupp)
  rcases h.decayed with hzero | ⟨t, last, hcrossed, hlast, hle⟩
  · rw [hzero] at hreuse
    exact absurd hflap.reuse (not_lt.2 hreuse)
  · rw [h.last, getLast?_concat] at hlast
    cases hlast
    exact absurd (decayedMax_lt hflap (hlate t hcrossed)) (not_lt.2 (hreuse.trans hle))

/-! ## One observation -/

/-- Advancing the phase leaves the damping alone. -/
theorem Damped.advancePhase (h : Damped flap accepted s) :
    Damped flap accepted (advancePhase config s obs).1 := by
  have hsame : ∀ t : TriggerKeyState ℝ, (t.lastObservedAt, t.lastRawBreached, t.penalty,
      t.suppressed) = (s.lastObservedAt, s.lastRawBreached, s.penalty, s.suppressed) →
      Damped flap accepted t := by
    intro t ht
    simp only [Prod.mk.injEq] at ht
    obtain ⟨hlast, hraw, hpen, hsupp⟩ := ht
    constructor <;> simp only [hlast, hraw, hpen, hsupp]
    exacts [h.last, h.raw, h.nonneg, h.le, h.decayed, h.suppressed]
  apply hsame
  simp only [Claim.advancePhase, pursue, settleIn]
  split_ifs <;> rfl

/-- The penalty before the charge: decayed since the last accepted observation. -/
theorem Damped.decay (hflap : ValidFlap flap) (h : Damped flap accepted s)
    (hnewer : isNewer s obs = true) {last : ℝ} (hlast : s.lastObservedAt = some last) :
    0 ≤ s.penalty * 2 ^ (-(obs.observedAt - last) / flap.halfLifeMs) ∧
      s.penalty * 2 ^ (-(obs.observedAt - last) / flap.halfLifeMs) ≤ s.penalty := by
  have hlt := last_lt_of_isNewer hnewer hlast
  constructor
  · exact mul_nonneg h.nonneg (Real.rpow_nonneg two_pos.le _)
  · apply mul_le_of_le_one_right h.nonneg
    apply Real.rpow_le_one_of_one_le_of_nonpos one_le_two
    exact div_nonpos_of_nonpos_of_nonneg (by linarith) hflap.halfLife.le

/-- Charging the penalty for a new observation. -/
theorem Damped.chargeFlap (hflap : ValidFlap flap) (h : Damped flap accepted s)
    (hnewer : isNewer s obs = true) :
    Damped flap (accepted ++ [obs]) (chargeFlap (fun x => (2 : ℝ) ^ x) flap s obs) := by
  have hsupp : ∀ penalty : ℝ, (if s.suppressed then !decide (penalty < flap.reuseBelow)
      else decide (flap.suppressAbove < penalty)) = true → flap.reuseBelow ≤ penalty := by
    intro penalty hpen
    split at hpen
    · simpa using hpen
    · exact (hflap.reuse_lt.trans (of_decide_eq_true hpen)).le
  have hraw := h.raw
  have hlast := h.last
  simp only [Claim.chargeFlap]
  cases hend : accepted.getLast? with
  | none =>
    -- The first observation: nothing has decayed and nothing is crossed.
    obtain rfl := getLast?_eq_none_iff.1 hend
    simp only [hraw, hlast]
    refine ⟨rfl, rfl, h.nonneg, h.le, h.decayed.imp_right ?_, hsupp _⟩
    rintro ⟨t, last, -, hsome, -⟩
    rw [hlast] at hsome
    cases hsome
  | some last =>
    rw [hend, Option.map_some] at hraw hlast
    obtain ⟨hdecayPos, hdecayLe⟩ := h.decay hflap hnewer hlast
    simp only [hraw, hlast]
    split
    · -- A crossing: the bound starts anew at this observation.
      rename_i hcrossed
      have hne : obs.breached ≠ last.breached := by simpa using hcrossed
      refine ⟨by simp, by simp, ?_, min_le_left _ _, .inr ?_, hsupp _⟩
      · exact le_min hflap.maxPenalty_pos.le (add_nonneg hdecayPos hflap.perFlip)
      · refine ⟨obs.observedAt, obs.observedAt, crossedAt_snoc hend hne, rfl, ?_⟩
        rw [sub_self, decayedMax_zero]
        exact min_le_left _ _
    · refine ⟨by simp, by simp, hdecayPos, hdecayLe.trans h.le, ?_, hsupp _⟩
      rcases h.decayed with hzero | ⟨t, last', hcrossed, hlast', hle⟩
      · left
        rw [hzero, zero_mul]
      right
      rw [hlast] at hlast'
      cases hlast'
      refine ⟨t, obs.observedAt, hcrossed.snoc obs, rfl, ?_⟩
      -- The bound has decayed as the penalty has.
      have hdecayed := mul_le_mul_of_nonneg_right hle
        (Real.rpow_nonneg two_pos.le (-(obs.observedAt - last.observedAt) / flap.halfLifeMs))
      rw [decayedMax_add] at hdecayed
      exact hdecayed.trans_eq (congrArg _ (by ring))

/-! ## Sequences of calls -/

variable {visits : List (Visit ℝ)} {v : Visit ℝ}

/-- One call of the evaluator. -/
theorem Damped.visit (hflap : ValidFlap config.flap) (h : Damped config.flap (acceptedIn visits) s)
    (hv : VisitIn (fun x => (2 : ℝ) ^ x) config s v) :
    Damped config.flap (acceptedIn (visits ++ [v])) v.after ∧ DampedVisit config.flap v visits := by
  have hnext : Damped config.flap (acceptedIn (visits ++ [v])) v.after := by
    rw [hv.after, observe]
    split
    · rename_i hnewer
      rw [acceptedIn_snoc_accepted (hv.accepted.trans hnewer)]
      exact (h.chargeFlap hflap hnewer).advancePhase
    · rename_i hnewer
      rw [acceptedIn_snoc_ignored (hv.accepted.trans (Bool.eq_false_iff.2 hnewer))]
      exact h
  refine ⟨hnext, ⟨hnext.nonneg, hnext.le⟩, ?_⟩
  intro hacc hlate
  rw [acceptedIn_snoc_accepted hacc] at hnext hlate
  have hrel := hnext.released hflap hlate
  exact ⟨hrel, hv.suppressed.trans hrel⟩

/-- In every sequence of calls on one key of a fresh evaluator with a valid configuration, the
penalty stays within its bounds, and an accepted observation finds the key released once the
longest suppression has passed since the last crossing. -/
theorem suppression_ends (config : TriggerStabilityConfig ℝ)
    (hvalid : validateTriggerConfig config = .ok ()) (key : String)
    (raws : List (RawObservation ℝ)) :
    PrecededBy (DampedVisit config.flap)
      (callAll (fun x => (2 : ℝ) ^ x) config key raws).visits := by
  have hflap := validFlap_of_validate hvalid
  have hinvariant : PrecededBy (DampedVisit config.flap)
        (callAll (fun x => (2 : ℝ) ^ x) config key raws).visits ∧
      Damped config.flap (acceptedIn (callAll (fun x => (2 : ℝ) ^ x) config key raws).visits)
        (stateOf (callAll (fun x => (2 : ℝ) ^ x) config key raws).states key) := by
    induction raws using List.reverseRecOn with
    | nil =>
      constructor
      · exact PrecededBy.nil _
      · exact ⟨rfl, rfl, le_rfl, hflap.maxPenalty_pos.le, .inl rfl, Bool.noConfusion⟩
    | append_singleton raws raw ih =>
      obtain ⟨hvisits, hdamped⟩ := ih
      rw [callAll, foldl_append]
      rcases TriggerRun.call_eq hvalid key (callAll (fun x => (2 : ℝ) ^ x) config key raws) raw
        with ⟨-, hcall⟩ | ⟨v, -, hv, hvisit, hstate⟩
      · simp only [foldl_cons, foldl_nil]
        rw [← callAll, hcall]
        exact ⟨hvisits, hdamped⟩
      · obtain ⟨hnext, hv⟩ := hdamped.visit hflap hv
        simp only [foldl_cons, foldl_nil]
        rw [← callAll, hvisit, hstate]
        exact ⟨hvisits.snoc v hv, hnext⟩
  exact hinvariant.1

/-- The default damping, over the reals. -/
def realDamping : TriggerStabilityConfig ℝ where
  hysteresis := 0
  minDwellMs := 0
  minConfirmations := 1
  flap := ⟨1000, 3000, 750, 15 * 60000, 6000⟩

/-- A feed that crosses its threshold four times in a minute and is quiet for an hour. -/
theorem suppression_ends_after_flapping :
    validateTriggerConfig realDamping = .ok () ∧
      PrecededBy (DampedVisit realDamping.flap)
        (callAll (fun x => (2 : ℝ) ^ x) realDamping "usdc"
          ([(1, 0), (3, 15000), (1, 30000), (3, 45000), (1, 60000), (1, 3660000)].map
            fun reading => ⟨some reading.1, some 2, .below, some reading.2⟩)).visits := by
  have hvalid : validateTriggerConfig realDamping = .ok () := by
    norm_num [validateTriggerConfig, realDamping]
  exact ⟨hvalid, suppression_ends realDamping hvalid "usdc" _⟩

end Refract.Claim
