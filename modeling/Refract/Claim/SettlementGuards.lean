import Refract.Claim.SettledOnce
import Refract.Lib.Traces

/-!
# What is checked before a settlement

The scan calls `settleClaim` only after a consensus decision has authorized the payout and the
coverage type was found not to be paused, both while it processes the policy
(`scan_settles_guarded`). A re-evaluation run enters the same payout path without either check:
`run_settles_unguarded` settles a policy in a step that asks neither for a decision nor for the
pause flag.
-/

namespace Refract.Claim

open Lib List
open Refract.Oracle

/-! ## The property -/

/-- The trace ends in the caller's step for the policy, and the events of the step satisfy `R`. -/
def InStep (c : Caller) (policyId : String) (R : List ClaimEvent → Prop)
    (trace : List ClaimEvent) : Prop :=
  ∃ before step, trace = before ++ .stepStarted c policyId :: step ∧
    (∀ other, .stepStarted c other ∉ step) ∧ R step

/-- A recorded, actionable, triggered decision for the coverage type authorized the payout. -/
def AuthorizedIn (policyId : String) (coverageType : Nat) (step : List ClaimEvent) : Prop :=
  ∃ decision, .authorized policyId coverageType decision ∈ step ∧
    authorizesPayout decision = true ∧ coverageTypeName coverageType = some decision.coverageType

/-- The payout was authorized, and its coverage type was not paused. -/
def GuardsPassed (policyId : String) (coverageType : Nat) (step : List ClaimEvent) : Prop :=
  AuthorizedIn policyId coverageType step ∧ .pauseAnswered policyId coverageType false ∈ step

/-- Every call of `settleClaim` is made in a step whose guards have passed. -/
def SettlesGuarded (trace : List ClaimEvent) : Prop :=
  PrecededBy (fun e before => ∀ c policyId coverageType,
    e = .settleCalled c policyId coverageType →
      InStep c policyId (GuardsPassed policyId coverageType) before) trace

/-- No re-evaluation run goes on to `settleClaim`. -/
def ScanSettles (s : ClaimState) : ClaimLabel → Prop
  | .payoutResumed (.run runId) (.proceed _) =>
    ∀ frame ∈ s.frameOf (.run runId), frame.pc ≠ .breakerAnswered true
  | _ => True

instance (s : ClaimState) (l : ClaimLabel) : Decidable (ScanSettles s l) := by
  unfold ScanSettles
  split <;> infer_instance

variable {policyId : String} {coverageType : Nat} {step : List ClaimEvent}

theorem AuthorizedIn.append (h : AuthorizedIn policyId coverageType step)
    (added : List ClaimEvent) : AuthorizedIn policyId coverageType (step ++ added) := by
  obtain ⟨decision, hmem, hpays, hname⟩ := h
  exact ⟨decision, mem_append_left added hmem, hpays, hname⟩

theorem GuardsPassed.append (h : GuardsPassed policyId coverageType step)
    (added : List ClaimEvent) : GuardsPassed policyId coverageType (step ++ added) :=
  ⟨h.1.append added, mem_append_left added h.2⟩

variable {trace : List ClaimEvent}

/-- More events of the same step. -/
theorem InStep.append {c : Caller} {R R' : List ClaimEvent → Prop} (h : InStep c policyId R trace)
    (added : List ClaimEvent) (hadd : ∀ other, .stepStarted c other ∉ added)
    (hR : ∀ step, R step → R' (step ++ added)) : InStep c policyId R' (trace ++ added) := by
  obtain ⟨before, step, rfl, hstep, hr⟩ := h
  refine ⟨before, step ++ added, by simp, ?_, hR step hr⟩
  intro other hmem
  rcases mem_append.1 hmem with hmem | hmem
  · exact hstep other hmem
  · exact hadd other hmem

theorem notMem_of_isOffScan {added : List ClaimEvent} (h : ∀ e ∈ added, e.isOffScan)
    (other : String) : .stepStarted .scan other ∉ added := by
  intro hmem
  cases h _ hmem

/-! ## The invariant -/

/-- What the trace says about the policy a scan is processing, by where the scan stands. -/
def ScanInStep : ScanPc → List ClaimEvent → Prop
  | .fetching policy _ _, trace | .deciding policy _ _ _, trace =>
    (coverageTypeName policy.coverageType).isSome ∧ InStep .scan policy.id (fun _ => True) trace
  | .pausing t _, trace =>
    InStep .scan t.policy.id (AuthorizedIn t.policy.id t.policy.coverageType) trace
  | .paying t _ frame, trace => frame.policy = ClaimState.scannedPolicy t.policy ∧
      InStep .scan t.policy.id (GuardsPassed t.policy.id t.policy.coverageType) trace
  | _, _ => True

variable {pc : ScanPc}

/-- Events off the scan leave the scan in its step. -/
theorem ScanInStep.append (h : ScanInStep pc trace) (added : List ClaimEvent)
    (hadd : ∀ e ∈ added, e.isOffScan) : ScanInStep pc (trace ++ added) := by
  have hoff := notMem_of_isOffScan hadd
  cases pc with
  | fetching | deciding =>
    exact ⟨h.1, h.2.append added hoff (fun _ _ => trivial)⟩
  | pausing => exact InStep.append h added hoff (fun _ hr => hr.append added)
  | paying => exact ⟨h.1, h.2.append added hoff (fun _ hr => hr.append added)⟩
  | idle | loop | tripping => trivial

theorem scanInStep_of_isCalm (h : pc.isCalm = true) (trace : List ClaimEvent) :
    ScanInStep pc trace := by
  cases pc with
  | idle | loop | tripping => trivial
  | fetching | deciding | pausing | paying => cases h

/-- A decision that authorizes a policy of a known type pays and is for that type. -/
theorem authorizedIn_singleton {policy : StoredPolicy} {decision : ConsensusDecision}
    (hknown : (coverageTypeName policy.coverageType).isSome)
    (hok : (authorizeSettlement policy ((coverageTypeName policy.coverageType).getD "")
      decision).isOk = true) :
    AuthorizedIn policy.id policy.coverageType
      [.authorized policy.id policy.coverageType decision] := by
  obtain ⟨name, hname⟩ := Option.isSome_iff_exists.1 hknown
  rw [authorizeSettlement_isOk, hname] at hok
  refine ⟨decision, mem_singleton_self _, hok.2, ?_⟩
  rw [hname, hok.1]
  rfl

variable {env : ClaimEnv} {s s' : ClaimState} {l : ClaimLabel}

/-- One step keeps the scan in its step. -/
theorem scanInStep_step (h : ScanInStep s.scan.pc s.trace) (hstep : ClaimSteps env s l s') :
    ScanInStep s'.scanView.pc s'.scanView.trace := by
  have heff := (stepEffects hstep).scan
  generalize s'.scanView = v' at heff ⊢
  cases heff with
  | kept pc _ events hpc hevs =>
    have happ := h.append events hevs
    generalize s.scan.pc = old at hpc happ
    cases hpc with
    | refl | paying => exact happ
  | rested _ _ hpc => exact scanInStep_of_isCalm hpc _
  | taken _ _ _ _ hknown =>
    refine ⟨hknown, s.trace, [], rfl, ?_, trivial⟩
    intro other hmem
    cases hmem
  | anomalous | unevaluated => trivial
  | read _ _ _ _ hfrom =>
    rw [hfrom] at h
    exact ⟨h.1, h.2.append _ (by simp) (fun _ _ => trivial)⟩
  | evaluated policy rest fetchedAt reading value decision coverageType e pc answer trust now
      hfrom hlabel hauth hvalue heval hpc =>
      rw [hfrom] at h
      rcases hpc with ⟨rfl, -⟩ | ⟨t, rfl, rfl, -⟩
      · trivial
      refine h.2.append _ (by simp) ?_
      intro step _
      obtain ⟨d, hmem, hpays⟩ := authorizedIn_singleton h.1 hauth
      exact ⟨d, mem_append_right step hmem, hpays⟩
  | entered _ _ _ hfrom hpol =>
    rw [hfrom] at h
    refine ⟨hpol, InStep.append h _ (by simp) ?_⟩
    intro step hauth
    exact ⟨hauth.append _, by simp⟩

/-! ## Runs -/

/-- Events without a call of `settleClaim` have nothing to show. -/
theorem SettlesGuarded.append (h : SettlesGuarded trace) (added : List ClaimEvent)
    (hadd : ∀ c policyId coverageType, .settleCalled c policyId coverageType ∉ added) :
    SettlesGuarded (trace ++ added) := by
  refine PrecededBy.append h added ?_
  rintro new e post heq c policyId coverageType rfl
  exact absurd (by simp [heq]) (hadd c policyId coverageType)

theorem settleCalled_notMem_of_isQuiet {events : List ClaimEvent} (h : ∀ e ∈ events, e.isQuiet)
    (c : Caller) (policyId : String) (coverageType : Nat) :
    .settleCalled c policyId coverageType ∉ events := by
  intro hmem
  cases h _ hmem

theorem settlesGuarded_step (h : SettlesGuarded s.trace) (hscan : ScanInStep s.scan.pc s.trace)
    (hsettles : ScanSettles s l) (hstep : ClaimSteps env s l s') :
    SettlesGuarded s'.view.trace := by
  have heff := (stepEffects hstep).payout
  generalize s'.view = v' at heff ⊢
  cases heff with
  | quiet events hquiet => exact h.append events (settleCalled_notMem_of_isQuiet hquiet)
  | left | answered | ended => exact h
  | entered _ _ _ hquiet =>
    refine h.append _ ?_
    intro c' policyId coverageType hmem
    rcases mem_append.1 hmem with hmem | hmem
    · exact settleCalled_notMem_of_isQuiet hquiet c' policyId coverageType hmem
    · simp at hmem
  | called c frame _ hframe hpc hlabel =>
    refine PrecededBy.snoc h _ ?_
    intro c' policyId coverageType heq
    cases heq
    cases c with
    | run =>
      subst hlabel
      exact absurd hpc (hsettles frame hframe)
    | scan =>
      -- The scan is in its payout, so the guards of its step have passed.
      change s.scan.pc.frame = some frame at hframe
      generalize s.scan.pc = pc at hscan hframe
      cases pc with
      | paying =>
        cases hframe
        obtain ⟨hpol, hguards⟩ := hscan
        rw [hpol]
        exact hguards
      | _ => cases hframe
  | failed | settled | opened | halfOpened | closed => exact h.append _ (by simp)

/-- In every run in which no re-evaluation run goes on to `settleClaim`, every call of
`settleClaim` is made in a step in which a decision authorized the payout and the coverage type was
not paused. -/
theorem scan_settles_guarded (env : ClaimEnv) (policies : OrdMap String StoredPolicy)
    (s : ClaimState) (hrun : RunWhere (ClaimSteps env) ScanSettles (ClaimState.start policies) s) :
    SettlesGuarded s.trace := by
  have hinv : SettlesGuarded s.trace ∧ ScanInStep s.scan.pc s.trace := by
    refine hrun.invariant
      (fun t : ClaimState => SettlesGuarded t.trace ∧ ScanInStep t.scan.pc t.trace)
      ⟨PrecededBy.nil _, trivial⟩ ?_
    rintro a l b ⟨hguarded, hscan⟩ hsettles hstep
    exact ⟨settlesGuarded_step hguarded hscan hsettles hstep, scanInStep_step hscan hstep⟩
  exact hinv.1

/-! ## A settlement nobody authorized -/

/-- The scan holds policy 1 over a degraded feed; the run planned when the feed is trusted again
goes on to `settleClaim`. -/
def heldThenReevaluated : List ClaimLabel :=
  scanDepeg 0 (9 / 10) (some .degraded) ++
    [.onVerdict ⟨"usdc-usd", .trusted, some (9 / 10), 1000⟩,
      .onVerdict ⟨"usdc-usd", .trusted, some (9 / 10), 301000⟩,
      .onTrustTransition ⟨"usdc-usd", .trusted, 302000⟩,
      .applyStarted depegRun "operator" 304000 10, .applyNext depegRun 304000,
      .breakerRead (.run depegRun) true, .payoutResumed (.run depegRun) (.proceed none)]

/-- The run settles in a step of its own, which asks for no decision and for no pause flag. -/
theorem run_settles_unguarded :
    ∃ s, RunWhere (ClaimSteps quickEnv) (fun _ _ => True) (depegStart ["1"]) s ∧
      ¬SettlesGuarded s.trace := by
  refine RunWhere.exists_reached heldThenReevaluated (fun s => s.trace =
      [.stepStarted .scan "1", .fetched "1" 0 false true, .authorized "1" 0 depegDecision,
        .pauseAnswered "1" 0 false, .stepStarted (.run depegRun) "1",
        .payoutEntered (.run depegRun) "1"] ++ [.settleCalled (.run depegRun) "1" 0])
    (by decide +kernel) fun s _ htrace hguarded => ?_
  obtain ⟨before, step, heq, -, hguards⟩ := hguarded _ _ [] htrace _ _ _ rfl
  -- The run has started one step only, so `heq` pins it down.
  simp [cons_eq_append_iff] at heq
  rw [heq.2] at hguards
  simpa using hguards.2

/-- A scan over a trusted feed settles policy 1 after both checks. -/
theorem scan_settles_guarded_trusted :
    ∃ s, RunWhere (ClaimSteps quickEnv) ScanSettles (depegStart ["1"]) s ∧
      .settleCalled .scan "1" 0 ∈ s.trace ∧ SettlesGuarded s.trace :=
  ⟨_, .performed (scanDepeg 0 (9 / 10) (some .trusted) ++ settlePayout .scan)
    (by decide +kernel), by decide +kernel,
    scan_settles_guarded quickEnv _ _ (.performed _ _)⟩

end Refract.Claim
