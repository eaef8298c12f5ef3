import Refract.Claim.SettledOnce
import Refract.Lib.Traces

/-!
# Settlements and the circuit breaker

A scan opens the breaker under the name of a coverage type, as the reading carries it
(`StablecoinDepeg`); a payout reads the row under the number of the policy's type (`0`). So an open
breaker does not stop a payout: `settled_behind_open_breaker`. `breaker_blocks_settlement` says what
is left when the row that is read agrees with the row that is opened, and when no breaker is opened
while a payout it has let through is still on its way to `settleClaim`: then no settlement of the
type is called between the opening and the half-opening and closing by an operator.
-/

namespace Refract.Claim

open Lib List ClaimEvent
open Refract.Oracle

/-! ## The property -/

/-- The scan opens the breaker of the type. -/
def IsOpening (name : String) (e : ClaimEvent) : Prop := e = .breakerOpened name

/-- `settleClaim` is called for a policy of the type. -/
def IsSettlementOf (coverageType : Nat) (e : ClaimEvent) : Prop :=
  ∃ c policyId, e = .settleCalled c policyId coverageType

/-- An operator has half-opened and then closed the breaker. -/
def Cleared (name : String) (events : List ClaimEvent) : Prop :=
  [breakerHalfOpened name, .breakerClosed name].Sublist events

/-- Between the opening of a type's breaker and a settlement of the type the breaker is cleared. -/
def BreakerBlocks (trace : List ClaimEvent) : Prop :=
  ∀ coverageType name, coverageTypeName coverageType = some name →
    Between (IsOpening name) (IsSettlementOf coverageType) (Cleared name) trace

variable {name : String} {events : List ClaimEvent}

theorem Cleared.append (h : Cleared name events) (added : List ClaimEvent) :
    Cleared name (events ++ added) :=
  h.trans (sublist_append_left events added)

theorem Cleared.of_halfOpened (h : .breakerHalfOpened name ∈ events) :
    Cleared name (events ++ [breakerClosed name]) :=
  (singleton_sublist.2 h).append (List.Sublist.refl _)

/-- Events that neither open a breaker nor call `settleClaim`. -/
def ClaimEvent.isHarmless : ClaimEvent → Bool
  | .breakerOpened _ | .settleCalled _ _ _ => false
  | _ => true

variable {e : ClaimEvent}

theorem ClaimEvent.isHarmless_of_isQuiet (h : e.isQuiet = true) : e.isHarmless = true := by
  cases e <;> first | rfl | cases h

theorem not_isOpening_of_isHarmless (h : e.isHarmless = true) (name : String) :
    ¬IsOpening name e := by
  rintro rfl
  cases h

theorem not_isSettlementOf_of_isHarmless (h : e.isHarmless = true) (coverageType : Nat) :
    ¬IsSettlementOf coverageType e := by
  rintro ⟨c, policyId, rfl⟩
  cases h

/-! ## The condition -/

/-- The anomalous reading a scan is about to open the breaker for. -/
def ScanPc.anomalous : ScanPc → Option OracleReading
  | .tripping reading _ _ => some reading
  | _ => none

/-- If the row a payout reads is closed, then so is the row the scan would have opened. -/
def ClaimState.RowsAgree (s : ClaimState) (c : Caller) : Prop :=
  ∀ frame ∈ s.frameOf c, ∀ name ∈ coverageTypeName frame.policy.coverageType,
    s.breakers.getState (toString frame.policy.coverageType) = .closed →
      s.breakers.getState name = .closed

/-- No payout of the anomalous type has passed the breaker and not yet called `settleClaim`. -/
def ClaimState.NoneLetThrough (s : ClaimState) : Prop :=
  ∀ reading ∈ s.scan.pc.anomalous, ∀ frame ∈ s.payouts, frame.pc = .breakerAnswered true →
    coverageTypeName frame.policy.coverageType ≠ some reading.coverageType

/-- The breaker that is read is the breaker that is opened, and it is not opened too late. -/
def BreakerAgrees (s : ClaimState) : ClaimLabel → Prop
  | .breakerRead c _ => s.RowsAgree c
  | .breakerTripped true _ _ => s.NoneLetThrough
  | _ => True

instance (s : ClaimState) (c : Caller) : Decidable (s.RowsAgree c) :=
  inferInstanceAs (Decidable (∀ frame ∈ s.frameOf c, _))

instance (s : ClaimState) : Decidable s.NoneLetThrough :=
  inferInstanceAs (Decidable (∀ reading ∈ s.scan.pc.anomalous, _))

instance (s : ClaimState) (l : ClaimLabel) : Decidable (BreakerAgrees s l) := by
  unfold BreakerAgrees
  split <;> infer_instance

/-! ## The invariant -/

/-- What the trace says about a breaker, by the state of its row, and what a payout that was let
through knows. -/
structure BreakerInv (v : PayoutView) : Prop where
  blocks : BreakerBlocks v.trace
  whenClosed : ∀ name, v.breakers.getState name = .closed →
    FollowedBy (IsOpening name) (Cleared name) v.trace
  whenHalfOpen : ∀ name, v.breakers.getState name = .halfOpen →
    FollowedBy (IsOpening name) (.breakerHalfOpened name ∈ ·) v.trace
  letThrough : ∀ c frame name, v.frames c = some frame → frame.pc = .breakerAnswered true →
    coverageTypeName frame.policy.coverageType = some name → v.breakers.getState name = .closed

variable {v : PayoutView}

namespace BreakerInv

variable (h : BreakerInv v)

include h

/-- A step that only logs harmless events. Its frames have to be looked at. -/
theorem extend {v' : PayoutView} (added : List ClaimEvent)
    (hadd : ∀ e ∈ added, e.isHarmless) (htr : v'.trace = v.trace ++ added)
    (hbreakers : v'.breakers = v.breakers)
    (hframes : ∀ c frame name, v'.frames c = some frame → frame.pc = .breakerAnswered true →
      coverageTypeName frame.policy.coverageType = some name →
        v.breakers.getState name = .closed) : BreakerInv v' where
  blocks := by
    intro coverageType name hname
    rw [htr]
    exact (h.blocks coverageType name hname).append added fun e he =>
      not_isSettlementOf_of_isHarmless (hadd e he) coverageType
  whenClosed name hclosed := by
    rw [hbreakers] at hclosed
    rw [htr]
    exact (h.whenClosed name hclosed).append added
      (fun e he => not_isOpening_of_isHarmless (hadd e he) name)
      (fun _ hcleared => hcleared.append added)
  whenHalfOpen name hhalf := by
    rw [hbreakers] at hhalf
    rw [htr]
    exact (h.whenHalfOpen name hhalf).append added
      (fun e he => not_isOpening_of_isHarmless (hadd e he) name)
      (fun _ hmem => mem_append_left added hmem)
  letThrough c frame name hframe hpc hname := by
    rw [hbreakers]
    exact hframes c frame name hframe hpc hname

/-- Writing a frame that was not just let through. -/
theorem setFrame (c : Caller) (frame : Option PayoutFrame)
    (hframe : ∀ f name, frame = some f → f.pc = .breakerAnswered true →
      coverageTypeName f.policy.coverageType = some name → v.breakers.getState name = .closed) :
    BreakerInv (v.setFrame c frame) := by
  refine h.extend [] (by simp) (by simp) rfl ?_
  intro c' f name hf hpc hname
  by_cases hc : c' = c
  · subst hc
    rw [PayoutView.setFrame_frames_self] at hf
    exact hframe f name hf hpc hname
  · rw [PayoutView.setFrame_frames_of_ne v frame hc] at hf
    exact h.letThrough c' f name hf hpc hname

theorem log (added : List ClaimEvent)
    (hadd : ∀ e ∈ added, e.isHarmless) : BreakerInv (v.log added) :=
  h.extend added hadd rfl rfl h.letThrough

/-- A settlement is called by a payout whose breaker is closed, so every opening was cleared. -/
theorem call {c : Caller} {frame : PayoutFrame} (hframe : v.frames c = some frame)
    (hpc : frame.pc = .breakerAnswered true) :
    BreakerInv (v.log [.settleCalled c frame.policy.id frame.policy.coverageType]) where
  blocks := by
    intro coverageType name hname
    refine (h.blocks coverageType name hname).snoc _ ?_
    rintro ⟨c', policyId, heq⟩
    cases heq
    exact h.whenClosed name (h.letThrough c frame name hframe hpc hname)
  whenClosed name hclosed :=
    (h.whenClosed name hclosed).append _ (by simp [IsOpening]) (fun _ hcleared => hcleared.append _)
  whenHalfOpen name hhalf :=
    (h.whenHalfOpen name hhalf).append _ (by simp [IsOpening])
      (fun _ => mem_append_left _)
  letThrough := h.letThrough

/-- The row `changed` comes to `state`, logged as `e`. What it promises there is for the caller to
show; every other row keeps its promises. -/
theorem setRow {changed : String} {state : BreakerState} {breakers : BreakerTable}
    (hst : ∀ other, breakers.getState other =
      if other = changed then state else v.breakers.getState other)
    (hsettle : ∀ ct, ¬IsSettlementOf ct e)
    (hopening : ∀ name, IsOpening name e → name = changed) (hclosed : state = .closed →
      FollowedBy (IsOpening changed) (Cleared changed) (v.trace ++ [e]))
    (hhalf : state = .halfOpen →
      FollowedBy (IsOpening changed) (.breakerHalfOpened changed ∈ ·) (v.trace ++ [e]))
    (hthru : ∀ c frame, v.frames c = some frame → frame.pc = .breakerAnswered true →
      coverageTypeName frame.policy.coverageType = some changed → state = .closed) :
    BreakerInv ((v.setBreakers breakers).log [e]) := by
  have hquiet : ∀ name, name ≠ changed → ∀ y ∈ [e], ¬IsOpening name y := by
    intro name hchg
    exact forall_mem_singleton.2 fun hopen => hchg (hopening name hopen)
  refine ⟨?_, ?_, ?_, ?_⟩
  · intro coverageType name hname
    exact (h.blocks coverageType name hname).append [e] (forall_mem_singleton.2 (hsettle _))
  · intro name hname
    replace hname := (hst name).symm.trans hname
    split at hname
    · rename_i hchg
      rw [hchg]
      exact hclosed hname
    · rename_i hchg
      exact (h.whenClosed name hname).append [e] (hquiet name hchg)
        (fun _ hcleared => hcleared.append _)
  · intro name hname
    replace hname := (hst name).symm.trans hname
    split at hname
    · rename_i hchg
      rw [hchg]
      exact hhalf hname
    · rename_i hchg
      exact (h.whenHalfOpen name hname).append [e] (hquiet name hchg)
        (fun _ => mem_append_left _)
  · intro c frame name hframe hpc hname
    refine (hst name).trans ?_
    split
    · rename_i hchg
      rw [hchg] at hname
      exact hthru c frame hframe hpc hname
    · exact h.letThrough c frame name hframe hpc hname

/-- A breaker is opened while no payout of its type has been let through. -/
theorem opened (name : String)
    (reasons : List AnomalyReason) (readings : List OracleReading) (dbNow : ℚ)
    (hnone : ∀ c frame, v.frames c = some frame → frame.pc = .breakerAnswered true →
      coverageTypeName frame.policy.coverageType ≠ some name) :
    BreakerInv ((v.setBreakers (v.breakers.openBreaker name reasons readings dbNow).1).log
      [.breakerOpened name]) := by
  refine h.setRow (fun other => BreakerTable.getState_openBreaker)
    ?_ ?_ ?_ ?_ ?_
  · rintro ct ⟨c, policyId, ⟨⟩⟩
  · rintro other ⟨⟩
    rfl
  · rintro ⟨⟩
  · rintro ⟨⟩
  · intro c frame hframe hpc hname
    exact absurd hname (hnone c frame hframe hpc)

theorem halfOpened (name : String) (now dbNow : ℚ)
    (hchg : (v.breakers.halfOpen name now dbNow).2 = true) :
    BreakerInv ((v.setBreakers (v.breakers.halfOpen name now dbNow).1).log
      [.breakerHalfOpened name]) := by
  obtain ⟨hopen, hst⟩ := BreakerTable.of_halfOpen hchg
  refine h.setRow hst ?_ ?_ ?_ ?_ ?_
  · rintro ct ⟨c, policyId, ⟨⟩⟩
  · rintro other ⟨⟩
  · rintro ⟨⟩
  · intro _
    -- Whatever was opened before is now followed by this half-opening.
    have hall : FollowedBy (IsOpening name) (fun _ => True) v.trace := fun _ _ _ _ _ => trivial
    exact hall.append _ (by simp [IsOpening]) (by simp)
  · intro c frame hframe hpc hname
    have hclosed := h.letThrough c frame name hframe hpc hname
    rw [hopen] at hclosed
    cases hclosed

theorem closed (name : String) (hchg : (v.breakers.close name).2 = true) :
    BreakerInv ((v.setBreakers (v.breakers.close name).1).log [.breakerClosed name]) := by
  obtain ⟨hhalf, hst⟩ := BreakerTable.of_close hchg
  refine h.setRow hst ?_ ?_ ?_ ?_ fun _ _ _ _ _ => rfl
  · rintro ct ⟨c, policyId, ⟨⟩⟩
  · rintro other ⟨⟩
  · intro _
    exact (h.whenHalfOpen name hhalf).append _ (by simp [IsOpening])
      (fun _ hmem => Cleared.of_halfOpened hmem)
  · rintro ⟨⟩

end BreakerInv

/-! ## Runs -/

theorem breakerInv_step {env : ClaimEnv} {s s' : ClaimState} {l : ClaimLabel}
    (h : BreakerInv s.view) (hagrees : BreakerAgrees s l) (hstep : ClaimSteps env s l s') :
    BreakerInv s'.view := by
  have heff := (stepEffects hstep).payout
  generalize s'.view = v' at heff ⊢
  cases heff with
  | quiet events hquiet =>
    exact h.log events fun e he => isHarmless_of_isQuiet (hquiet e he)
  | left c => exact h.setFrame c none (by simp)
  | entered c frame _ hquiet _ _ hpc =>
    refine (h.log _ ?_).setFrame c (some frame) ?_
    · exact forall_mem_snoc.2 ⟨fun e he => isHarmless_of_isQuiet (hquiet e he), rfl⟩
    · intro f name hf hthru
      cases hf
      rw [hpc] at hthru
      cases hthru
  | answered c frame _ hframe _ hlabel =>
    refine h.setFrame c _ ?_
    intro f name hf hthru hname
    cases hf
    subst hlabel
    -- The row under the number was closed, and it agrees with the row under the name.
    rw [PayoutPc.breakerAnswered.injEq, Bool.and_eq_true, decide_eq_true_eq] at hthru
    exact hagrees frame hframe name hname hthru.2
  | ended c _ pc _ hpc =>
    refine h.setFrame c _ ?_
    intro f name hf hthru
    cases hf
    change pc = .breakerAnswered true at hthru
    rw [hthru] at hpc
    cases hpc
  | called c _ _ hframe hpc =>
    refine (h.call hframe hpc).setFrame c _ ?_
    intro f name hf hthru
    cases hf
    cases hthru
  | failed c _ _ pc _ _ _ hend =>
    refine (h.log _ (by simp [isHarmless])).setFrame c _ ?_
    intro f name hf hthru
    cases hf
    change pc = .breakerAnswered true at hthru
    rw [hthru] at hend
    cases hend
  | settled c =>
    refine BreakerInv.setFrame (v := PayoutView.setPolicies _ _) ?_ c _ ?_
    · exact h.extend _ (by simp [isHarmless]) rfl rfl h.letThrough
    · intro f name hf hthru
      cases hf
      cases hthru
  | opened reading reasons _ _ dbNow hpc hlabel =>
    refine h.opened reading.coverageType reasons [reading] dbNow ?_
    intro c frame hframe hthru
    subst hlabel
    have hreading : reading ∈ s.scan.pc.anomalous := by
      rw [hpc]
      rfl
    exact hagrees reading hreading frame (ClaimState.mem_payouts hframe) hthru
  | halfOpened coverageType now dbNow hchg =>
    exact h.halfOpened coverageType now dbNow hchg
  | closed coverageType hchg => exact h.closed coverageType hchg

theorem breakerInv_start (policies : OrdMap String StoredPolicy) :
    BreakerInv (ClaimState.start policies).view where
  blocks _ _ _ := Between.nil _ _ _
  whenClosed _ _ := FollowedBy.nil _ _
  whenHalfOpen _ _ := FollowedBy.nil _ _
  letThrough c _ _ hframe _ _ := by cases c <;> cases hframe

/-- In every run in which the row a payout reads agrees with the row the scan opens, and no breaker
is opened behind a payout that was let through, a settlement of a coverage type is not called
between the opening of the type's breaker and its half-opening and closing by an operator. -/
theorem breaker_blocks_settlement (env : ClaimEnv) (policies : OrdMap String StoredPolicy)
    (s : ClaimState)
    (hrun : RunWhere (ClaimSteps env) BreakerAgrees (ClaimState.start policies) s) :
    BreakerBlocks s.trace := by
  have hinv : BreakerInv s.view := by
    refine hrun.invariant (fun t => BreakerInv t.view) (breakerInv_start policies) ?_
    intro a l b h hagrees hstep
    exact breakerInv_step h hagrees hstep
  exact hinv.blocks

/-! ## A settlement behind an open breaker -/

/-- The reading of policy 1 is anomalous and opens the breaker; the one of policy 2 is not. -/
def trippedThenPaid : List ClaimLabel :=
  [.startScan 0, .scanNext 0, .fetched (some ⟨.finite (4 / 10), 95 / 100, "depeg"⟩) 0,
    .breakerTripped true true 0, .scanNext 0,
    .fetched (some ⟨.finite (9 / 10), 95 / 100, "depeg"⟩) 0, .decided (some depegDecision) none 0,
    .pauseAnswered (some false), .breakerRead .scan true, .payoutResumed .scan (.proceed none)]

/-- Policy 2 is settled in the scan that opened the breaker of its type. -/
theorem settled_behind_open_breaker :
    ∃ s, RunWhere (ClaimSteps quickEnv) (fun _ _ => True) (depegStart ["1", "2"]) s ∧
      ¬BreakerBlocks s.trace := by
  refine RunWhere.exists_reached trippedThenPaid (fun s => s.trace = s.trace.take 2 ++
    .breakerOpened "StablecoinDepeg" :: ([.stepStarted .scan "2", .fetched "2" 0 false true,
      .authorized "2" 0 depegDecision, .pauseAnswered "2" 0 false, .payoutEntered .scan "2"] ++
    [.settleCalled .scan "2" 0])) (by decide +kernel) fun s _ htrace hblocks => ?_
  have hcleared := hblocks 0 "StablecoinDepeg" rfl (s.trace.take 2) _ _ _ [] rfl
    ⟨.scan, "2", rfl⟩ htrace
  have hmem := hcleared.subset mem_cons_self
  simp at hmem

/-- After an anomalous reading of policy 1 an operator clears the breaker, and then policy 2 is
settled. -/
theorem breaker_blocks_settlement_cleared :
    ∃ s, RunWhere (ClaimSteps quickEnv) BreakerAgrees (depegStart ["1", "2"]) s ∧
      .settleCalled .scan "2" 0 ∈ s.trace ∧ BreakerBlocks s.trace :=
  ⟨_, .performed
    (trippedThenPaid.take 4 ++ [.halfOpenBreaker "StablecoinDepeg" 1800000 1800000,
      .closeBreaker "StablecoinDepeg"] ++ trippedThenPaid.drop 4) (by decide +kernel),
    by decide +kernel, breaker_blocks_settlement quickEnv _ _ (.performed _ _)⟩

end Refract.Claim
