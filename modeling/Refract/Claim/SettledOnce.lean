import Refract.Claim.ScanEffects
import Refract.Lib.Runs

/-!
# How often a policy is paid

The scan deactivates a policy it has paid, and a re-evaluation run skips a policy its ledger knows
to be paid. Neither looks at what the other has paid or is paying. `settled_at_most_once` says that
this is the only way to pay twice, unless the hold of a settled claim cannot be marked: as long as
every payout is entered for a policy that is still active and that nobody else is paying, and every
hold is marked, a policy is settled at most once in every interleaving. The
run `paidByScanAndRun` has no such payout: a held policy is planned for re-evaluation, paid by the
next scan over a trusted feed, and paid again when the run is applied.
-/

namespace Refract.Claim

open Lib ClaimState
open Refract.Oracle

/-- The policy is stored and active. -/
def isActive (policies : OrdMap String StoredPolicy) (policyId : String) : Bool :=
  (policies.get? policyId).any (·.isActive)

theorem isActive_deactivate (policies : OrdMap String StoredPolicy) (policyId other : String) :
    isActive (deactivate policies policyId) other =
      (decide (other ≠ policyId) && isActive policies other) := by
  unfold deactivate isActive
  cases hstored : policies.get? policyId with
  | none =>
    by_cases h : other = policyId
    · subst h
      simp [hstored]
    · simp [h]
  | some =>
    rw [OrdMap.get?_set]
    by_cases h : other = policyId <;> simp [h]

/-- How often `settleClaim` has confirmed for a policy. -/
def settledCount (trace : List ClaimEvent) (policyId : String) : Nat :=
  trace.count (.settleResolved policyId true)

theorem settledCount_append (trace added : List ClaimEvent) (policyId : String) :
    settledCount (trace ++ added) policyId =
      settledCount trace policyId + settledCount added policyId :=
  List.count_append

theorem settledCount_of_quiet {events : List ClaimEvent} (hquiet : ∀ e ∈ events, e.isQuiet)
    (policyId : String) : settledCount events policyId = 0 := by
  apply List.count_eq_zero_of_not_mem
  intro hmem
  have h := hquiet _ hmem
  simp [ClaimEvent.isQuiet] at h

namespace PayoutView

/-- The caller is paying the policy and may still get it settled. -/
def PayingFor (v : PayoutView) (c : Caller) (policyId : String) : Prop :=
  ∃ frame, v.frames c = some frame ∧ frame.policy.id = policyId ∧ frame.pc.isLive = true

variable {v : PayoutView} {c c' : Caller} {policyId : String}

theorem PayingFor.of_setFrame {frame : Option PayoutFrame}
    (h : (v.setFrame c frame).PayingFor c' policyId) :
    (c' = c ∧ ∃ f, frame = some f ∧ f.policy.id = policyId ∧ f.pc.isLive = true) ∨
      (c' ≠ c ∧ v.PayingFor c' policyId) := by
  obtain ⟨f, hf, hid, hlive⟩ := h
  by_cases hc : c' = c
  · subst hc
    rw [setFrame_frames_self] at hf
    exact .inl ⟨rfl, f, hf, hid, hlive⟩
  · rw [setFrame_frames_of_ne v frame hc] at hf
    exact .inr ⟨hc, f, hf, hid, hlive⟩

variable {frame : PayoutFrame} {pc : PayoutPc}

/-- A caller that only moves on in its call was paying the same policy before. -/
theorem PayingFor.of_setFrame_pc (hframe : v.frames c = some frame)
    (hlive : pc.isLive = true → frame.pc.isLive = true)
    (h : (v.setFrame c (some { frame with pc })).PayingFor c' policyId) :
    v.PayingFor c' policyId := by
  rcases h.of_setFrame with ⟨rfl, f, hf, hid, hlive'⟩ | ⟨-, h⟩
  · cases hf
    exact ⟨frame, hframe, hid, hlive hlive'⟩
  · exact h

/-- What a policy that is settled at most once looks like along a run. -/
structure PaidOnce (v : PayoutView) : Prop where
  once : ∀ policyId, settledCount v.trace policyId ≤ 1
  /-- A settled policy is not active any more. -/
  inactive : ∀ policyId, 0 < settledCount v.trace policyId → isActive v.policies policyId = false
  /-- Nobody is paying a settled policy. -/
  unpaying : ∀ policyId c, 0 < settledCount v.trace policyId → ¬v.PayingFor c policyId
  /-- Two callers are not paying one policy. -/
  single : ∀ policyId c c', v.PayingFor c policyId → v.PayingFor c' policyId → c = c'

/-- A step that settles nothing, enters nothing and leaves the policies alone. -/
theorem PaidOnce.of_le {v' : PayoutView} (h : v.PaidOnce) (hpolicies : v'.policies = v.policies)
    (hcnt : ∀ policyId, settledCount v'.trace policyId = settledCount v.trace policyId)
    (hpaying : ∀ c policyId, v'.PayingFor c policyId → v.PayingFor c policyId) : v'.PaidOnce where
  once policyId := by
    rw [hcnt]
    exact h.once policyId
  inactive policyId hpaid := by
    rw [hcnt] at hpaid
    rw [hpolicies]
    exact h.inactive policyId hpaid
  unpaying policyId c hpaid hp := by
    rw [hcnt] at hpaid
    exact h.unpaying policyId c hpaid (hpaying c policyId hp)
  single policyId c c' hc hc' :=
    h.single policyId c c' (hpaying c policyId hc) (hpaying c' policyId hc')

/-- A payout for a policy that is active and that nobody pays may start. -/
theorem PaidOnce.enter (h : v.PaidOnce) (c : Caller) (frame : PayoutFrame)
    (hact : isActive v.policies frame.policy.id = true)
    (hfree : ∀ c', ¬v.PayingFor c' frame.policy.id) : (v.setFrame c (some frame)).PaidOnce where
  once := h.once
  inactive := h.inactive
  unpaying policyId c' hpaid hp := by
    rcases hp.of_setFrame with ⟨-, f, hf, hid, -⟩ | ⟨-, hp⟩
    · cases hf
      have hinactive := h.inactive policyId hpaid
      rw [← hid, hact] at hinactive
      cases hinactive
    · exact h.unpaying policyId c' hpaid hp
  single policyId c₁ c₂ h₁ h₂ := by
    rcases h₁.of_setFrame with ⟨hc₁, f₁, hf₁, hid₁, -⟩ | ⟨-, hp₁⟩
    · rcases h₂.of_setFrame with ⟨hc₂, -⟩ | ⟨-, hp₂⟩
      · rw [hc₁, hc₂]
      · cases hf₁
        exact absurd (hid₁ ▸ hp₂) (hfree c₂)
    · rcases h₂.of_setFrame with ⟨-, f₂, hf₂, hid₂, -⟩ | ⟨-, hp₂⟩
      · cases hf₂
        exact absurd (hid₂ ▸ hp₁) (hfree c₁)
      · exact h.single policyId c₁ c₂ hp₁ hp₂

/-- A confirmed settlement: its policy was not settled before, and nobody else was paying it. -/
theorem PaidOnce.settle (h : v.PaidOnce) (hframe : v.frames c = some frame)
    (hlive : frame.pc.isLive = true) (hpc : pc.isLive = false) :
    (((v.log [.settleResolved frame.policy.id true]).setPolicies
      (deactivate v.policies frame.policy.id)).setFrame c (some { frame with pc })).PaidOnce := by
  have hpaying : v.PayingFor c frame.policy.id := ⟨frame, hframe, rfl, hlive⟩
  have hunpaid : settledCount v.trace frame.policy.id = 0 := by
    by_contra hpaid
    exact h.unpaying _ c (Nat.pos_of_ne_zero hpaid) hpaying
  have hcnt : ∀ policyId, settledCount
      (v.trace ++ [ClaimEvent.settleResolved frame.policy.id true]) policyId =
      settledCount v.trace policyId + if policyId = frame.policy.id then 1 else 0 := by
    intro policyId
    by_cases hid : policyId = frame.policy.id
    · simp [settledCount, hid]
    · simp [settledCount, hid, Ne.symm hid]
  -- Afterwards the caller is done, and the other callers pay other policies.
  have hothers : ∀ c' policyId, (((v.log [.settleResolved frame.policy.id true]).setPolicies
      (deactivate v.policies frame.policy.id)).setFrame c (some { frame with pc })).PayingFor c'
        policyId → c' ≠ c ∧ v.PayingFor c' policyId := by
    intro c' policyId hp
    rcases hp.of_setFrame with ⟨-, f, hf, -, hlive'⟩ | ⟨hc, f, hf, hid, hlive'⟩
    · cases hf
      rw [hpc] at hlive'
      cases hlive'
    · exact ⟨hc, f, hf, hid, hlive'⟩
  refine ⟨?_, ?_, ?_, ?_⟩
  · intro policyId
    simp only [setFrame_trace, setPolicies_trace, log_trace, hcnt]
    have honce := h.once policyId
    split
    · rename_i hid
      rw [hid, hunpaid]
    · exact honce
  · intro policyId hpaid
    simp only [setFrame_trace, setPolicies_trace, log_trace, hcnt] at hpaid
    simp only [setFrame_policies, setPolicies_policies, isActive_deactivate]
    by_cases hid : policyId = frame.policy.id
    · simp [hid]
    · rw [if_neg hid, Nat.add_zero] at hpaid
      simp [h.inactive policyId hpaid]
  · intro policyId c' hpaid hp
    simp only [setFrame_trace, setPolicies_trace, log_trace, hcnt] at hpaid
    obtain ⟨hc, hp⟩ := hothers c' policyId hp
    by_cases hid : policyId = frame.policy.id
    · subst hid
      exact hc (h.single _ c' c hp hpaying)
    · rw [if_neg hid, Nat.add_zero] at hpaid
      exact h.unpaying policyId c' hpaid hp
  · intro policyId c₁ c₂ h₁ h₂
    exact h.single policyId c₁ c₂ (hothers c₁ policyId h₁).2 (hothers c₂ policyId h₂).2

end PayoutView

/-! ## Runs -/

/-- A payout is entered only for an active policy that no other call of `processPayout` may still
get settled, and the hold of a settled claim is marked. -/
def PaysUnpaid (env : ClaimEnv) (s : ClaimState) (l : ClaimLabel) : Prop :=
  (∀ p ∈ entering env s l, isActive s.policies p.id = true ∧
    ∀ frame ∈ s.payouts, frame.pc.isLive = true → frame.policy.id ≠ p.id) ∧ l.isUnmarked = false

instance (env : ClaimEnv) (s : ClaimState) (l : ClaimLabel) : Decidable (PaysUnpaid env s l) :=
  inferInstanceAs (Decidable ((∀ p ∈ entering env s l, _) ∧ _))

/-- One step keeps every policy settled at most once. -/
theorem paidOnce_step {env : ClaimEnv} {s s' : ClaimState} {l : ClaimLabel} (h : s.view.PaidOnce)
    (hunpaid : PaysUnpaid env s l) (hstep : ClaimSteps env s l s') :
    s'.view.PaidOnce := by
  have heff := (stepEffects hstep).payout
  generalize s'.view = v' at heff ⊢
  cases heff with
  | quiet _ hquiet =>
    refine h.of_le rfl ?_ (fun _ _ hp => hp)
    intro policyId
    rw [PayoutView.log_trace, settledCount_append, settledCount_of_quiet hquiet, Nat.add_zero]
  | left =>
    refine h.of_le rfl (fun _ => rfl) ?_
    intro c' policyId hp
    rcases hp.of_setFrame with ⟨-, f, hf, -⟩ | ⟨-, hp⟩
    · cases hf
    · exact hp
  | entered c frame _ hquiet henter =>
    obtain ⟨hact, hfree⟩ := hunpaid.1 frame.policy henter
    refine PayoutView.PaidOnce.enter (v := s.view.log _) ?_ c frame hact ?_
    · refine h.of_le rfl ?_ (fun _ _ hp => hp)
      intro policyId
      rw [PayoutView.log_trace, settledCount_append, settledCount_append,
        settledCount_of_quiet hquiet]
      simp [settledCount]
    · rintro c' ⟨f, hf, hid, hlive⟩
      exact hfree f (mem_payouts hf) hlive hid
  | answered _ _ _ hframe hpc =>
    refine h.of_le rfl (fun _ => rfl) ?_
    intro c' policyId hp
    exact hp.of_setFrame_pc hframe (fun _ => by rw [hpc]; rfl)
  | ended _ _ _ hframe hpc =>
    refine h.of_le rfl (fun _ => rfl) ?_
    intro c' policyId hp
    exact hp.of_setFrame_pc hframe (fun hlive => by rw [hpc] at hlive; cases hlive)
  | called _ _ _ hframe hpc =>
    refine h.of_le rfl ?_ ?_
    · intro policyId
      simp [settledCount]
    · intro c' policyId hp
      exact PayoutView.PayingFor.of_setFrame_pc (v := s.view) hframe (fun _ => by rw [hpc]; rfl) hp
  | failed _ _ _ _ settled hframe hpc _ hlabel =>
    rw [hlabel, hunpaid.2]
    refine h.of_le rfl ?_ ?_
    · intro policyId
      simp [settledCount]
    · intro c' policyId hp
      exact PayoutView.PayingFor.of_setFrame_pc (v := s.view) hframe (fun _ => by rw [hpc]; rfl) hp
  | settled _ _ _ _ hframe hpc =>
    exact h.settle hframe (by rw [hpc]; rfl) rfl
  | opened | halfOpened | closed =>
    refine h.of_le rfl ?_ (fun _ _ hp => hp)
    simp [settledCount]

theorem paidOnce_start (policies : OrdMap String StoredPolicy) :
    (start policies).view.PaidOnce := by
  have hnone : ∀ c policyId, ¬(start policies).view.PayingFor c policyId := by
    rintro c policyId ⟨frame, hframe, -⟩
    cases c <;> cases hframe
  refine ⟨fun _ => Nat.zero_le 1, fun _ h => ?_, fun policyId c _ => hnone c policyId, ?_⟩
  · cases h
  · intro policyId c c' hc
    exact absurd hc (hnone c policyId)

/-- In every interleaving in which each payout is entered for an active policy that nobody else is
paying and the holds of settled claims are marked, `settleClaim` confirms at most once for each
policy. -/
theorem settled_at_most_once (env : ClaimEnv) (policies : OrdMap String StoredPolicy)
    (s : ClaimState) (hrun : RunWhere (ClaimSteps env) (PaysUnpaid env) (start policies) s)
    (policyId : String) : settledCount s.trace policyId ≤ 1 := by
  have hinv : s.view.PaidOnce := by
    refine hrun.invariant (fun t => t.view.PaidOnce) (paidOnce_start policies) ?_
    intro a l b h hunpaid hstep
    exact paidOnce_step h hunpaid hstep
  exact hinv.once policyId

/-! ## A policy paid twice -/

/-- A depeg policy of the holder `G`, in force until second 1000000. -/
def depegPolicy (policyId : String) : StoredPolicy :=
  ⟨policyId, "G", 0, 1000, 1000000, true, none⟩

/-- The service over some depeg policies, before any scan. -/
def depegStart (policyIds : List String) : ClaimState :=
  ClaimState.start (policyIds.foldl (fun m policyId => m.set policyId (depegPolicy policyId))
    OrdMap.empty)

/-- A service whose triggers need one confirmation and no dwell. -/
def quickEnv : ClaimEnv where
  host := plainHost
  sha := id
  pow2 := fun _ => 1
  triggerOverrides := ⟨some 0, some 1⟩
  anomalyRules := defaultAnomalyRules
  holdOnUntrustedFeed := true
  reevaluation := defaultReevaluationConfig

/-- A recorded, triggered decision on the depeg feed. -/
def depegDecision : ConsensusDecision :=
  ⟨"StablecoinDepeg@1", "StablecoinDepeg", true, true, "ok", [], some 1⟩

/-- A scan takes a policy, reads `value` against the threshold 0.95 and gets a decision. -/
def scanReading (now value : ℚ) (decision : ConsensusDecision) (trust : Option FeedTrustState) :
    List ClaimLabel :=
  [.startScan now, .scanNext now, .fetched (some ⟨.finite value, 95 / 100, "depeg"⟩) now,
    .decided (some decision) trust now]

/-- A scan up to the answer of the pause check. -/
def scanDepeg (now value : ℚ) (trust : Option FeedTrustState) : List ClaimLabel :=
  scanReading now value depegDecision trust ++ [.pauseAnswered (some false)]

/-- A payout that nothing stops. -/
def settlePayout (c : Caller) : List ClaimLabel :=
  [.breakerRead c true, .payoutResumed c (.proceed none), .settleAnswered c (.settled (some "tx"))]

/-- The run planned when the depeg feed is trusted again. -/
def depegRun : String := "reeval_\x7b\"feedId\":\"usdc-usd\",\"de"

/-- The first scan holds policy 1 because its feed is degraded. Trusted readings arrive, the feed
is trusted again and a run is planned. A second scan pays the policy; then the run is applied. -/
def paidByScanAndRun : List ClaimLabel :=
  scanDepeg 0 (9 / 10) (some .degraded) ++
    [.scanNext 0, .onVerdict ⟨"usdc-usd", .trusted, some (9 / 10), 1000⟩,
      .onVerdict ⟨"usdc-usd", .trusted, some (9 / 10), 301000⟩,
      .onTrustTransition ⟨"usdc-usd", .trusted, 302000⟩] ++
    scanDepeg 303000 (9 / 10) (some .trusted) ++ settlePayout .scan ++ [.scanPaid] ++
    [.applyStarted depegRun "operator" 304000 10, .applyNext depegRun 304000] ++
    settlePayout (.run depegRun)

/-- The scan and the run settle the same policy: the run's ledger never heard of the scan's
settlement, and the run does not ask whether the policy is still active. -/
theorem settled_twice_by_scan_and_run :
    ∃ s, RunWhere (ClaimSteps quickEnv) (fun _ _ => True) (depegStart ["1"]) s ∧
      settledCount s.trace "1" = 2 :=
  ⟨_, .performed paidByScanAndRun (by decide +kernel), by decide +kernel⟩

/-- A scan over a trusted feed pays policy 1, and that is the only time. -/
theorem settled_at_most_once_by_scan :
    ∃ s, RunWhere (ClaimSteps quickEnv) (PaysUnpaid quickEnv) (depegStart ["1"]) s ∧
      settledCount s.trace "1" = 1 ∧ settledCount s.trace "1" ≤ 1 :=
  ⟨_, .performed (scanDepeg 0 (9 / 10) (some .trusted) ++ settlePayout .scan)
    (by decide +kernel), by decide +kernel,
    settled_at_most_once quickEnv _ _ (.performed _ _) "1"⟩

end Refract.Claim
