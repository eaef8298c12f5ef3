import Mathlib.Tactic.Simps.Basic
import Refract.Claim.ClaimService

/-!
# What a step does to the payouts

The payout view of a state is what the safety properties speak of: the payout frames, the policies,
the breaker table and the trace. `PayoutEffect` lists everything a step can do to it. The invariants
of the following modules are proved from that list and never unfold a step.
-/

namespace Refract.Claim

open Lib
open Refract.Oracle
open ClaimState

/-- The part of a state that payouts are about. -/
structure PayoutView where
  frames : Caller → Option PayoutFrame
  policies : OrdMap String StoredPolicy
  breakers : BreakerTable
  trace : List ClaimEvent

/-- The payout view of a state. -/
def ClaimState.view (s : ClaimState) : PayoutView :=
  ⟨s.frameOf, s.policies, s.breakers, s.trace⟩

variable {c : Caller} {frame : Option PayoutFrame}

namespace PayoutView

variable (v : PayoutView)

/-- The view with another frame for a caller. -/
@[simps policies breakers trace]
def setFrame (c : Caller) (frame : Option PayoutFrame) : PayoutView :=
  { v with frames := Function.update v.frames c frame }

@[simps]
def log (events : List ClaimEvent) : PayoutView :=
  { v with trace := v.trace ++ events }

@[simps]
def setPolicies (policies : OrdMap String StoredPolicy) : PayoutView :=
  { v with policies }

@[simps]
def setBreakers (breakers : BreakerTable) : PayoutView := { v with breakers }

@[simp] theorem setFrame_frames_self (c : Caller) (frame : Option PayoutFrame) :
    (v.setFrame c frame).frames c = frame := by
  simp [setFrame]

theorem setFrame_frames_of_ne {c' : Caller} (frame : Option PayoutFrame) (h : c' ≠ c) :
    (v.setFrame c frame).frames c' = v.frames c' := by
  simp [setFrame, h]

theorem log_nil : v.log [] = v := by
  simp [log]

theorem log_log (a b : List ClaimEvent) : (v.log a).log b = v.log (a ++ b) := by
  simp [log]

/-- Writing the frame that is there changes nothing. -/
theorem setFrame_eq_self {v : PayoutView} (h : v.frames c = frame) : v.setFrame c frame = v := by
  subst h
  simp [setFrame]

end PayoutView

namespace ClaimState

theorem view_log (s : ClaimState) (events : List ClaimEvent) :
    (s.log events).view = s.view.log events := rfl

theorem view_setPc (s : ClaimState) (pc : ScanPc) :
    (s.setPc pc).view = s.view.setFrame .scan pc.frame := by
  have hframes : (s.setPc pc).frameOf = Function.update s.frameOf .scan pc.frame := by
    funext c
    cases c with
    | scan | run => simp [frameOf, setPc]
  simp only [view, PayoutView.setFrame, hframes]
  rfl

/-- Tasks that differ in the frame of one run. -/
theorem view_applies (s : ClaimState) {applies : OrdMap String ApplyTask} (runId : String)
    (frame : Option PayoutFrame) (h : ∀ other, (applies.get? other).bind ApplyTask.frame =
      if other = runId then frame else (s.applies.get? other).bind ApplyTask.frame) :
    ({ s with applies } : ClaimState).view = s.view.setFrame (.run runId) frame := by
  have hframes : ({ s with applies } : ClaimState).frameOf =
      Function.update s.frameOf (.run runId) frame := by
    funext c
    cases c with
    | scan => simp [frameOf]
    | run other => simp [frameOf, Function.update_apply, h]
  simp only [view, PayoutView.setFrame, hframes]

/-- Writing the task of a run writes its frame. -/
theorem view_setApply (s : ClaimState) (runId : String) (task : ApplyTask) :
    ({ s with applies := s.applies.set runId task } : ClaimState).view =
      s.view.setFrame (.run runId) task.frame := by
  apply view_applies
  intro other
  rw [OrdMap.get?_set]
  split <;> rfl

theorem view_deleteApply (s : ClaimState) (runId : String) :
    ({ s with applies := s.applies.delete runId } : ClaimState).view =
      s.view.setFrame (.run runId) none := by
  apply view_applies
  intro other
  rw [OrdMap.get?_delete]
  split <;> rfl

variable {s : ClaimState}

theorem view_setFramePc {frame : PayoutFrame} (h : s.frameOf c = some frame) (pc : PayoutPc) :
    (s.setFramePc c pc).view = s.view.setFrame c (some { frame with pc }) := by
  cases c with
  | scan =>
    cases hpc : s.scan.pc with
    | paying _ _ f =>
      have hf : f = frame := by simpa [frameOf, hpc, ScanPc.frame] using h
      subst hf
      simp only [setFramePc, hpc, view_setPc, ScanPc.frame]
    | _ => simp [frameOf, hpc, ScanPc.frame] at h
  | run runId =>
    cases htask : s.applies.get? runId with
    | none => simp [frameOf, htask] at h
    | some task =>
      have htaskFrame : task.frame = some frame := by simpa [frameOf, htask] using h
      have hnew : ({ task with
          payout := task.payout.map fun p => (p.1, { p.2 with pc }) } : ApplyTask).frame =
          some { frame with pc } := by
        cases hp : task.payout with
        | none => simp [ApplyTask.frame, hp] at htaskFrame
        | some p =>
          have hp2 : p.2 = frame := by simpa [ApplyTask.frame, hp] using htaskFrame
          simp [ApplyTask.frame, hp2]
      simp only [setFramePc, htask, view_setApply, hnew]

/-- The calls of `processPayout` that somebody awaits. -/
def payouts (s : ClaimState) : List PayoutFrame :=
  s.scan.pc.frame.toList ++ s.applies.values.filterMap ApplyTask.frame

theorem mem_payouts {frame : PayoutFrame} (h : s.frameOf c = some frame) : frame ∈ s.payouts := by
  cases c with
  | scan => exact List.mem_append_left _ (Option.mem_toList.2 h)
  | run runId =>
    obtain ⟨task, htask, hframe⟩ := Option.bind_eq_some_iff.1 h
    have hvalue : task ∈ s.applies.values := OrdMap.mem_values_iff.2 ⟨runId, htask⟩
    exact List.mem_append_right _ (List.mem_filterMap.2 ⟨task, hvalue, hframe⟩)

end ClaimState

/-! ## Effects -/

/-- Events that are not about payouts or breakers. -/
def ClaimEvent.isQuiet : ClaimEvent → Bool
  | .stepStarted _ _ | .fetched _ _ _ _ | .authorized _ _ _ | .pauseAnswered _ _ _ => true
  | _ => false

/-- A claim is settled whose hold cannot be marked. -/
def ClaimLabel.isUnmarked : ClaimLabel → Bool
  | .settleAnswered _ (.unmarked _) => true
  | _ => false

/-- What the step `l` from `s` can do to the payout view. -/
inductive PayoutEffect (env : ClaimEnv) (s : ClaimState) (l : ClaimLabel) : PayoutView → Prop
  /-- Nothing but events that are not about payouts. -/
  | quiet (events : List ClaimEvent) (hquiet : ∀ e ∈ events, e.isQuiet) :
      PayoutEffect env s l (s.view.log events)
  /-- A caller has no payout any more. -/
  | left (c : Caller) : PayoutEffect env s l (s.view.setFrame c none)
  /-- A caller enters `processPayout`. -/
  | entered (c : Caller) (frame : PayoutFrame) (events : List ClaimEvent)
      (hquiet : ∀ e ∈ events, e.isQuiet) (henter : entering env s l = some frame.policy)
      (hnone : s.frameOf c = none) (hpc : frame.pc = .queryingBreaker) :
      PayoutEffect env s l
        ((s.view.log (events ++ [.payoutEntered c frame.policy.id])).setFrame c (some frame))
  /-- The breaker answers: it allows the payout when the row under the policy's number is closed. -/
  | answered (c : Caller) (frame : PayoutFrame) (readable : Bool)
      (hframe : s.frameOf c = some frame) (hpc : frame.pc = .queryingBreaker)
      (hlabel : l = .breakerRead c readable) :
      PayoutEffect env s l (s.view.setFrame c (some { frame with
        pc := .breakerAnswered (readable &&
          decide (s.breakers.getState (toString frame.policy.coverageType) = .closed)) }))
  /-- The call ends without `settleClaim` having resolved. -/
  | ended (c : Caller) (frame : PayoutFrame) (pc : PayoutPc) (hframe : s.frameOf c = some frame)
      (hpc : pc.isLive = false) :
      PayoutEffect env s l (s.view.setFrame c (some { frame with pc }))
  /-- `settleClaim` is called. -/
  | called (c : Caller) (frame : PayoutFrame) (holdId : Option String)
      (hframe : s.frameOf c = some frame) (hpc : frame.pc = .breakerAnswered true)
      (hlabel : l = .payoutResumed c (.proceed holdId)) :
      PayoutEffect env s l
        ((s.view.log [.settleCalled c frame.policy.id frame.policy.coverageType]).setFrame c
          (some { frame with pc := .settling holdId }))
  /-- `settleClaim` does not confirm, or the hold cannot be marked settled. -/
  | failed (c : Caller) (frame : PayoutFrame) (holdId : Option String) (pc : PayoutPc)
      (settled : Bool) (hframe : s.frameOf c = some frame) (hpc : frame.pc = .settling holdId)
      (hend : pc.isLive = false) (hlabel : settled = l.isUnmarked) :
      PayoutEffect env s l
        ((s.view.log [.settleResolved frame.policy.id settled]).setFrame c
          (some { frame with pc }))
  /-- `settleClaim` confirms, and the policy is deactivated. -/
  | settled (c : Caller) (frame : PayoutFrame) (holdId : Option String) (result : ClaimResult)
      (hframe : s.frameOf c = some frame) (hpc : frame.pc = .settling holdId) :
      PayoutEffect env s l
        (((s.view.log [.settleResolved frame.policy.id true]).setPolicies
            (deactivate s.policies frame.policy.id)).setFrame c
          (some { frame with pc := .returned (some result) }))
  /-- The scan opens a breaker on an anomalous reading. -/
  | opened (reading : OracleReading) (reasons : List AnomalyReason) (rest : List StoredPolicy)
      (recorded : Bool) (dbNow : ℚ) (hpc : s.scan.pc = .tripping reading reasons rest)
      (hlabel : l = .breakerTripped true recorded dbNow) :
      PayoutEffect env s l
        ((s.view.setBreakers
          (s.breakers.openBreaker reading.coverageType reasons [reading] dbNow).1).log
            [.breakerOpened reading.coverageType])
  /-- An operator half-opens a breaker. -/
  | halfOpened (coverageType : String) (now dbNow : ℚ)
      (hchanged : (s.breakers.halfOpen coverageType now dbNow).2 = true) :
      PayoutEffect env s l
        ((s.view.setBreakers (s.breakers.halfOpen coverageType now dbNow).1).log
          [.breakerHalfOpened coverageType])
  /-- An operator closes a breaker. -/
  | closed (coverageType : String) (hchanged : (s.breakers.close coverageType).2 = true) :
      PayoutEffect env s l
        ((s.view.setBreakers (s.breakers.close coverageType).1).log [.breakerClosed coverageType])

variable {env : ClaimEnv} {s s' : ClaimState} {l : ClaimLabel}

theorem PayoutEffect.of_view_eq (h : s'.view = s.view) : PayoutEffect env s l s'.view := by
  rw [h, ← PayoutView.log_nil s.view]
  exact .quiet [] (by simp)

variable {pc : ScanPc}

/-- The scan moves on without a payout. -/
theorem view_setPc_of_none (hframe : s.scan.pc.frame = none) (hpc : pc.frame = none) :
    (s.setPc pc).view = s.view := by
  rw [view_setPc, hpc]
  exact PayoutView.setFrame_eq_self hframe

theorem view_caught_of_none (hframe : s.scan.pc.frame = none) (rest : List StoredPolicy) :
    (s.caught rest).view = s.view :=
  view_setPc_of_none hframe rfl

/-- The scan moves on without a payout, after events that are not about payouts. -/
theorem PayoutEffect.of_setPc {t : ClaimState} {events : List ClaimEvent}
    (hframe : s.scan.pc.frame = none) (hsame : t.scan.pc = s.scan.pc)
    (hview : t.view = s.view.log events) (hquiet : ∀ e ∈ events, e.isQuiet)
    (hpc : pc.frame = none) : PayoutEffect env s l (t.setPc pc).view := by
  rw [← hsame] at hframe
  rw [view_setPc_of_none hframe hpc, hview]
  exact .quiet events hquiet

/-- An adjudication is emitted to the re-evaluation service only. -/
theorem emitAdjudication_elim {P : ClaimState → Prop} {policy : StoredPolicy}
    {reading : OracleReading} {feedId : String} {trust : Option FeedTrustState}
    {outcome : AdjudicationOutcome} {fetchedAt paid : Int} {txHash : Option String}
    (h : ∀ reevaluation, P { s with reevaluation }) :
    P (s.emitAdjudication env policy reading feedId trust outcome fetchedAt paid txHash) := by
  cases trust <;> exact h _

/-- Writing an item touches the re-evaluation service only. -/
theorem setItem_elim {P : ClaimState → Prop} {runId recordId : String} {state : ItemState}
    (h : ∀ reevaluation, P { s with reevaluation }) : P (s.setItem runId recordId state) := by
  simp only [setItem]
  split <;> exact h _

end Refract.Claim
