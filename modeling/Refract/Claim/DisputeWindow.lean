import Refract.Claim.DisputeSafety

/-!
# The window of a dispute

The window is measured from the time at which the settlement of a decision was inserted. A payout
that follows from the first claim of its decision can be disputed for the whole window after that
claim (`dispute_accepted`). A failed settlement that is claimed again keeps its time, so that the
window of the payout is shorter, or over before it begins (`dispute_refused`).
-/

namespace Refract.Claim

open Lib List OrdMap

/-- What a settlement keeps for good: its decision, its policy and when it was inserted. -/
def Settlement.origin (r : Settlement) : String × String × ℚ :=
  (r.decisionId, r.policyId, r.createdAt)

/-- No policy changes, and every settlement stays. -/
structure KeepsOrigins (db db' : SettlementDb) : Prop where
  policies : db'.policies = db.policies
  settlements : db.settlements.map (·.origin) <+: db'.settlements.map (·.origin)

variable {numeric : String → Option ℚ} {windows : OrdMap String ℚ} {db db' : SettlementDb}
  {decisionId policyId amount evidence : String} {now : ℚ} {held : Bool}

theorem KeepsOrigins.refl : KeepsOrigins db db := ⟨rfl, prefix_rfl⟩

theorem KeepsOrigins.of_map (hpol : db'.policies = db.policies)
    (hrows : db'.settlements.map (·.origin) = db.settlements.map (·.origin)) :
    KeepsOrigins db db' :=
  ⟨hpol, hrows ▸ prefix_rfl⟩

theorem claim_keepsOrigins
    (h : claim numeric db decisionId policyId amount evidence now = .ok (db', held)) :
    KeepsOrigins db db' := by
  rcases claim_ok h with ⟨rfl, -⟩ | h
  · exact .refl
  simp only [upsertSettlement] at h
  split at h
  · cases h
  obtain ⟨_, -, h⟩ := exceptBind_eq_ok h
  split at h
  · iterate 2 obtain ⟨_, -, h⟩ := exceptBind_eq_ok h
    cases h
    exact ⟨rfl, by simp⟩
  split at h
  · obtain ⟨_, -, h⟩ := exceptBind_eq_ok h
    cases h
    exact .of_map rfl (map_updateWhere fun _ _ _ => rfl)
  · cases h
    exact .refl

/-- The first claim of a decision inserts its settlement. -/
theorem mem_origins_of_claim (hfirst : findByDecisionId db decisionId = none)
    (h : claim numeric db decisionId policyId amount evidence now = .ok (db', true)) :
    (decisionId, policyId, now) ∈ db'.settlements.map (·.origin) := by
  rcases claim_ok h with ⟨-, hheld⟩ | h
  · cases hheld
  simp only [upsertSettlement, hfirst] at h
  split at h
  · cases h
  iterate 3 obtain ⟨_, -, h⟩ := exceptBind_eq_ok h
  cases h
  simp [Settlement.origin]

theorem settlementStep_keepsOrigins (s : SettlementState) (call : SettlementCall) :
    KeepsOrigins s.db (settlementStep numeric s call).db := by
  cases call with
  | claim =>
    simp only [settlementStep]
    split
    · exact claim_keepsOrigins ‹_›
    · exact claim_keepsOrigins ‹_›
    · exact .refl
  | markSubmitted decisionId txHash =>
    simp only [settlementStep]
    rcases hcall : markSubmitted s.db decisionId txHash with e | ⟨db', count⟩
    · exact .refl
    obtain ⟨_, -, hmove⟩ := exceptBind_eq_ok hcall
    cases hmove
    exact .of_map rfl (map_updateWhere fun _ _ _ => rfl)
  | markConfirmed =>
    simp only [settlementStep, markConfirmed]
    split
    · rename_i hcall
      split at hcall
      · cases hcall
      split at hcall
      · cases hcall
      cases hcall
      exact .of_map rfl (map_updateWhere fun _ _ _ => rfl)
    · exact .refl
  | markFailed =>
    simp only [settlementStep]
    split
    all_goals
      rename_i hcall
      cases congrArg Prod.fst hcall
      exact .of_map rfl (map_updateWhere fun _ _ _ => rfl)

/-- Runs of dispute and settlement transactions. -/
abbrev DisputeRun (numeric : String → Option ℚ) (windows : OrdMap String ℚ) :
    DisputeDb → DisputeDb → Prop :=
  RunWhere (fun a call b => disputeStep numeric windows a call = b) fun _ _ => True

variable {db db' : DisputeDb}

theorem DisputeInv.run (h : DisputeInv db) (hrun : DisputeRun numeric windows db db') :
    DisputeInv db' := by
  refine hrun.invariant _ h ?_
  rintro a call _ ha _ rfl
  exact (ha.step call).1

theorem disputeRun_keepsOrigins (hrun : DisputeRun numeric windows db db') :
    KeepsOrigins db.settlement db'.settlement := by
  refine hrun.invariant (fun db' => KeepsOrigins db.settlement db'.settlement) .refl ?_
  rintro a call _ ha _ rfl
  have hstep : KeepsOrigins a.settlement (disputeStep numeric windows a call).settlement := by
    cases call with
    | openDispute input now id =>
      simp only [disputeStep]
      rcases hcall : openDispute windows a input now id with e | ⟨db', id'⟩
      · exact .refl
      · obtain ⟨_, -, -, -, -, -, rfl⟩ := openDispute_ok hcall
        exact .refl
    | transition id input now =>
      simp only [disputeStep]
      rcases hcall : transition a id input now with e | ⟨db', _⟩
      · exact .refl
      · obtain ⟨_, -, _, -, -, -, _, -, -, -, rfl⟩ := transition_ok hcall
        exact .refl
    | settlement call => exact settlementStep_keepsOrigins ⟨a.settlement, []⟩ call
  exact ⟨hstep.policies.trans ha.policies, ha.settlements.trans hstep.settlements⟩

/-- A payout on the first claim of its decision can be disputed at every time less than the window
after the claim, unless it has a dispute that is not withdrawn. -/
theorem dispute_accepted {numeric : String → Option ℚ} {windows : OrdMap String ℚ}
    {policies : OrdMap String String} {claims : List ClaimRow} {before after : DisputeDb}
    (hbefore : DisputeRun numeric windows (.start policies claims) before)
    {decisionId policyId amount evidence coverageType : String} {claimedAt : ℚ}
    (hfirst : findByDecisionId before.settlement decisionId = none)
    (hclaim : ∃ db, claim numeric before.settlement decisionId policyId amount evidence claimedAt =
      .ok (db, true)) (hafter : DisputeRun numeric windows (disputeStep numeric windows before
      (.settlement (.claim decisionId policyId amount evidence claimedAt))) after)
    (hconfirmed : ∃ r ∈ after.settlement.settlements,
      r.decisionId = decisionId ∧ r.status = .confirmed)
    (hpolicy : policies.get? policyId = some coverageType)
    (hfree : ∀ d ∈ after.disputes, d.decisionId = decisionId → d.status = .withdrawn)
    {input : OpenDisputeInput} (hinput : input.decisionId = decisionId)
    (hreason : 1 ≤ input.reason.toList.length ∧ input.reason.toList.length ≤ 2000) {id : String}
    (hid : ∀ d ∈ after.disputes, d.id ≠ id) {now : ℚ}
    (hnow : now < claimedAt + windowHoursFor windows coverageType * 3600) :
    ∃ db, openDispute windows after input now id = .ok (db, id) := by
  subst hinput
  have hinv : DisputeInv after :=
    (((disputeInv_start policies claims).run hbefore).step _).1.run hafter
  obtain ⟨claimed, hclaim⟩ := hclaim
  have hstep : (disputeStep numeric windows before (.settlement
      (.claim input.decisionId policyId amount evidence claimedAt))).settlement = claimed := by
    simp only [disputeStep, settlementStep, hclaim]
  have hkept := disputeRun_keepsOrigins hafter
  have hpolicies : after.settlement.policies = policies := by
    rw [hkept.policies, hstep, (claim_keepsOrigins hclaim).policies,
      (disputeRun_keepsOrigins hbefore).policies]
    rfl
  -- The settlement has the time of the claim.
  obtain ⟨r, hr, horigin⟩ := mem_map.1 (hkept.settlements.subset
    (hstep ▸ mem_origins_of_claim hfirst hclaim))
  obtain ⟨hdecision, hrPolicy, hcreated⟩ : r.decisionId = input.decisionId ∧
      r.policyId = policyId ∧ r.createdAt = claimedAt := by simpa [Settlement.origin] using horigin
  have hstatus : r.status = .confirmed := by
    obtain ⟨r', hr', hdecision', hstatus⟩ := hconfirmed
    rwa [hinv.settlements.eq hr hr' (hdecision.trans hdecision'.symm)]
  have hsettlement : settlementOf after.settlement input.decisionId = some (r, coverageType) := by
    cases hfind : findByDecisionId after.settlement input.decisionId with
    | none => exact absurd hdecision (findByDecisionId_eq_none hfind r hr)
    | some found =>
      obtain ⟨hfound, hid⟩ := findByDecisionId_eq_some hfind
      rw [settlementOf, hfind, hinv.settlements.eq hfound hr (hid.trans hdecision.symm)]
      simp [hpolicies, hrPolicy, hpolicy]
  simp only [openDispute, hsettlement, hstatus, hcreated, if_neg (not_le.2 hnow)]
  have hvalid : ∀ d : Dispute, d.id = id → d.decisionId = input.decisionId →
      d.replacementDecisionId = none → DisputesValid (after.disputes ++ [d]) := by
    rintro d rfl hsame hnone
    refine ⟨hinv.valid.ids.insert hid, hinv.valid.live.insert ?_, hinv.valid.replacements.insert ?_⟩
    · intro _ d' hd' hlive heq
      exact of_decide_eq_true hlive (hfree d' hd' (heq.trans hsame))
    · intro hsome
      rw [hnone] at hsome
      cases hsome
  rw [writeDisputes,
    enforce_eq_ok.2 (forall_mem_snoc.2 ⟨hinv.checked, hreason.1, hreason.2, by simp⟩),
    exceptOk_bind, enforce_eq_ok.2 (hvalid _ rfl rfl rfl)]
  exact ⟨_, rfl⟩

/-! ## First and second claims -/

def wrongPrice : OpenDisputeInput := ⟨"d", "wrong price", "bond", "holder"⟩

/-- The decision is claimed at a time, and the payout confirmed. -/
def payoutAt (db : DisputeDb) (claimedAt : ℚ) : DisputeDb :=
  [DisputeCall.settlement (.markConfirmed "d" "policy" "hash" (claimedAt + 1))].foldl
    (disputeStep tenOnly empty) (disputeStep tenOnly empty db
      (.settlement (.claim "d" "policy" "10" "\x7b\x7d" claimedAt)))

theorem dispute_accepted_first :
    ∃ db, openDispute empty (payoutAt onePolicy 0) wrongPrice 259199 (uuidOf "1") =
      .ok (db, uuidOf "1") :=
  @dispute_accepted tenOnly empty _ _ onePolicy (payoutAt onePolicy 0) .refl "d" "policy"
    "10" "\x7b\x7d" "stablecoin_depeg" 0 (by decide +kernel) ⟨_, rfl⟩
    (RunWhere.of_foldl (fun _ _ => trivial) _) (by decide +kernel) (by decide +kernel)
    (by decide +kernel) wrongPrice rfl (by decide +kernel) _ (by decide +kernel) _
    (by decide +kernel)

/-- A claim of the decision failed. -/
def failedClaim : DisputeDb :=
  [DisputeCall.settlement (.claim "d" "policy" "10" "\x7b\x7d" 0),
    .settlement (.markFailed "d" "rejected")].foldl (disputeStep tenOnly empty) onePolicy

/-- The payout of a claim that is made again after the window cannot be disputed. -/
theorem dispute_refused :
    (claim tenOnly failedClaim.settlement "d" "policy" "10" "\x7b\x7d" 300000).map (·.2) =
      .ok true ∧
    (∃ r ∈ (payoutAt failedClaim 300000).settlement.settlements,
      r.decisionId = "d" ∧ r.status = .confirmed) ∧ (payoutAt failedClaim 300000).disputes = [] ∧
    (300002 : ℚ) < 300000 + windowHoursFor empty "stablecoin_depeg" * 3600 ∧
    (openDispute empty (payoutAt failedClaim 300000) wrongPrice 300002 (uuidOf "1")).isOk =
      false := by
  refine ⟨?_, ?_, ?_, ?_, ?_⟩ <;> decide +kernel

end Refract.Claim
