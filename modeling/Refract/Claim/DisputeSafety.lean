import Refract.Claim.Disputes
import Refract.Claim.SettlementExclusive

/-!
# Disputes, bonds and reversals agree

Over all interleavings of dispute and settlement transactions (`disputes_sound`): a decision has at
most one dispute that is not withdrawn and at most one reversal, which exists exactly when its
dispute is reversed; the bond follows the status; resolved disputes are final, a decision that was
upheld or reversed is not disputed again, and a disputed settlement does not change.

`DisputeInv` is the inductive invariant, `Keeps` what every transaction leaves alone. Both are shown
for one transaction from what it can do (`openDispute_ok`, `transition_ok`).
-/

namespace Refract.Claim

open Lib List

/-! ## The property -/

/-- The resolutions of a dispute. -/
def DisputeStatus.isFinal : DisputeStatus → Bool
  | .upheld | .reversed | .withdrawn => true
  | .open | .underReview => false

/-- What holds of the tables at any time. -/
structure DisputesSound (db : DisputeDb) : Prop where
  oneLive : ∀ d ∈ db.disputes, ∀ d' ∈ db.disputes, d.status ≠ .withdrawn → d'.status ≠ .withdrawn →
    d.decisionId = d'.decisionId → d = d'
  oneReversal : UniqueKey (·.decisionId) db.reversals
  reversed : ∀ decisionId, (∃ v ∈ db.reversals, v.decisionId = decisionId) ↔
    ∃ d ∈ db.disputes, d.decisionId = decisionId ∧ d.status = .reversed
  booked : ∀ v ∈ db.reversals, ∀ d ∈ db.disputes, d.decisionId = v.decisionId →
    d.status = .reversed →
      v.disputeId = d.id ∧
      (∀ r ∈ db.settlement.settlements, r.decisionId = d.decisionId → v.amount = r.amount) ∧
      ∃ replacement, d.replacementDecisionId = some replacement ∧ replacement ≠ d.decisionId ∧
        ∀ d' ∈ db.disputes, d'.replacementDecisionId = some replacement → d' = d
  posted : ∀ d ∈ db.disputes,
    d.bondStatus = .posted ↔ d.status = .open ∨ d.status = .underReview
  forfeited : ∀ d ∈ db.disputes, d.bondStatus = .forfeited ↔ d.status = .upheld
  returned : ∀ d ∈ db.disputes,
    d.bondStatus = .returned ↔ d.status = .reversed ∨ d.status = .withdrawn
  confirmed : ∀ d ∈ db.disputes, ∃ r ∈ db.settlement.settlements, r.decisionId = d.decisionId ∧
    r.status = .confirmed

/-- What later transactions leave alone. -/
structure Keeps (db db' : DisputeDb) : Prop where
  disputed : ∀ d ∈ db.disputes, ∃ d' ∈ db'.disputes, d'.id = d.id ∧ d'.decisionId = d.decisionId
  final : ∀ d ∈ db.disputes, d.status.isFinal = true → d ∈ db'.disputes
  decided : ∀ d ∈ db.disputes, d.status = .upheld ∨ d.status = .reversed →
    ∀ d' ∈ db'.disputes, d'.decisionId = d.decisionId → d' ∈ db.disputes
  settlement : ∀ d ∈ db.disputes, ∀ r ∈ db.settlement.settlements, r.decisionId = d.decisionId →
    r ∈ db'.settlement.settlements

theorem Keeps.refl (db : DisputeDb) : Keeps db db :=
  ⟨fun d hd => ⟨d, hd, rfl, rfl⟩, fun _ hd _ => hd, fun _ _ _ _ hd' _ => hd', fun _ _ _ hr _ => hr⟩

theorem Keeps.trans {db db' db'' : DisputeDb} (h : Keeps db db') (h' : Keeps db' db'') :
    Keeps db db'' := by
  refine ⟨?_, ?_, ?_, ?_⟩
  · intro d hd
    obtain ⟨d', hd', hid, hdec⟩ := h.disputed d hd
    obtain ⟨d'', hd'', hid', hdec'⟩ := h'.disputed d' hd'
    exact ⟨d'', hd'', hid'.trans hid, hdec'.trans hdec⟩
  · intro d hd hfin
    exact h'.final d (h.final d hd hfin) hfin
  · intro d hd hdecided d'' hd'' hdec
    have hfin : d.status.isFinal = true := by
      rcases hdecided with hstat | hstat <;> rw [hstat] <;> rfl
    exact h.decided d hd hdecided d'' (h'.decided d (h.final d hd hfin) hdecided d'' hd'' hdec) hdec
  · intro d hd r hr hdec
    obtain ⟨d', hd', _, hdec'⟩ := h.disputed d hd
    exact h'.settlement d' hd' r (h.settlement d hd r hr hdec) (hdec.trans hdec'.symm)

/-! ## What a transaction can do -/

variable {input : TransitionDisputeInput} {id id' : String} {d : Dispute} {db db' : DisputeDb}
  {windows : OrdMap String ℚ} {now : ℚ}

theorem writeDisputes_ok {disputes written : List Dispute}
    (h : writeDisputes disputes = .ok written) :
    written = disputes ∧ (∀ d ∈ disputes, d.Valid) ∧ DisputesValid disputes := by
  obtain ⟨_, hchk, h⟩ := exceptBind_eq_ok h
  obtain ⟨_, hval, h⟩ := exceptBind_eq_ok h
  cases h
  exact ⟨rfl, enforce_eq_ok.1 hchk, enforce_eq_ok.1 hval⟩

variable {reversals : List Reversal}

theorem writeReversals_ok {written : List Reversal} (h : writeReversals reversals = .ok written) :
    written = reversals ∧ UniqueKey (·.decisionId) reversals := by
  obtain ⟨_, _, h⟩ := exceptBind_eq_ok h
  obtain ⟨_, huniq, h⟩ := exceptBind_eq_ok h
  cases h
  exact ⟨rfl, (enforce_eq_ok.1 huniq).2⟩

/-- A new dispute is open, with its bond posted, on a confirmed settlement. -/
theorem openDispute_ok {input : OpenDisputeInput}
    (h : openDispute windows db input now id = .ok (db', id')) :
    ∃ d : Dispute, d.status = .open ∧ d.bondStatus = .posted ∧
      (∃ r ∈ db.settlement.settlements, r.decisionId = d.decisionId ∧ r.status = .confirmed) ∧
      (∀ d' ∈ db.disputes ++ [d], d'.Valid) ∧ DisputesValid (db.disputes ++ [d]) ∧
      db' = { db with disputes := db.disputes ++ [d] } := by
  simp only [openDispute] at h
  split at h
  · cases h
  rename_i settlement coverageType hsettle
  obtain ⟨row, hrow, hcov⟩ := Option.bind_eq_some_iff.1 hsettle
  obtain ⟨_, _, hpair⟩ := Option.map_eq_some_iff.1 hcov
  cases hpair
  obtain ⟨hmem, hid⟩ := findByDecisionId_eq_some hrow
  split at h
  · cases h
  · cases h
  · cases h
  · rename_i hstat
    split at h
    · cases h
    obtain ⟨written, hwritten, h⟩ := exceptBind_eq_ok h
    obtain ⟨rfl, hchk, hval⟩ := writeDisputes_ok (onViolation_eq_ok hwritten)
    cases h
    exact ⟨_, rfl, rfl, ⟨settlement, hmem, hid, hstat⟩, hchk, hval, rfl⟩

/-- The reversal that is booked for a dispute. -/
def reversalFor (d : Dispute) (r : Settlement) : Reversal :=
  ⟨d.id, d.decisionId, d.policyId, r.amount, .owed⟩

/-- Reversals are only added, and exactly for a decision that is reversed. -/
theorem bookReversal_ok {r : Settlement} (h : bookReversal db d r input = .ok reversals)
    (hkey : UniqueKey (·.decisionId) db.reversals) :
    UniqueKey (·.decisionId) reversals ∧ (∀ v ∈ db.reversals, v ∈ reversals) ∧
      (input.target = .reversed → reversalFor d r ∈ reversals) ∧
      ∀ v ∈ reversals, v ∈ db.reversals ∨ (v = reversalFor d r ∧ input.target = .reversed ∧
        input.replacementDecisionId.isSome = true) := by
  simp only [bookReversal] at h
  split at h
  · rename_i htgt
    cases h
    exact ⟨hkey, fun _ hv => hv, fun hrev => absurd hrev htgt, fun _ hv => .inl hv⟩
  rename_i htgt
  split at h
  · cases h
  rename_i hblank
  split at h
  · cases h
  obtain ⟨rfl, huniq⟩ := writeReversals_ok (onViolation_eq_ok h)
  refine ⟨huniq, fun _ => mem_append_left _, fun _ => mem_snoc.2 (.inr rfl), ?_⟩
  refine forall_mem_snoc.2 ⟨fun _ hv => .inl hv, .inr ⟨rfl, not_not.1 htgt, ?_⟩⟩
  cases hrepl : input.replacementDecisionId with
  | none =>
    rw [hrepl] at hblank
    exact absurd rfl hblank
  | some => rfl

/-- A dispute moves along `transitions`, and is reversed together with its reversal. -/
theorem transition_ok (h : transition db id input now = .ok (db', ())) :
    ∃ d ∈ db.disputes, ∃ r ∈ db.settlement.settlements, r.decisionId = d.decisionId ∧
      input.target ∈ transitions d.status ∧ ∃ reversals, bookReversal db d r input = .ok reversals ∧
      (∀ d' ∈ db'.disputes, d'.Valid) ∧ DisputesValid db'.disputes ∧
      db' = { db with
        disputes := updateWhere
          (fun d' => decide (d'.id = d.id) && decide (d'.status = d.status)) (·.moveTo input now)
          db.disputes
        reversals } := by
  simp only [transition] at h
  split at h
  · cases h
  split at h
  · cases h
  rename_i d settlement hdispute
  obtain ⟨found, hfound, hsettle⟩ := Option.bind_eq_some_iff.1 hdispute
  obtain ⟨row, hrow, hpair⟩ := Option.map_eq_some_iff.1 hsettle
  cases hpair
  obtain ⟨hmem, hid⟩ := findByDecisionId_eq_some hrow
  split at h
  · cases h
  rename_i htgt
  obtain ⟨reversals, hreversals, h⟩ := exceptBind_eq_ok h
  obtain ⟨written, hwritten, h⟩ := exceptBind_eq_ok h
  obtain ⟨rfl, hchk, hval⟩ := writeDisputes_ok (onViolation_eq_ok hwritten)
  split at h
  · cases h
  cases h
  exact ⟨d, mem_of_find?_eq_some hfound, settlement, hmem, hid, not_not.1 htgt, reversals,
    hreversals, hchk, hval, rfl⟩

/-! ## The invariant -/

/-- The bond of a status. -/
def DisputeStatus.bond (status : DisputeStatus) : BondStatus :=
  (bondOnResolution status).getD .posted

/-- A reversal belongs to a reversed dispute of the decision and has the amount of its payout. -/
structure Booked (db : DisputeDb) (v : Reversal) (d : Dispute) : Prop where
  dispute : v.disputeId = d.id
  decision : v.decisionId = d.decisionId
  status : d.status = .reversed
  replaced : d.replacementDecisionId.isSome = true
  amount : ∃ r ∈ db.settlement.settlements, r.decisionId = d.decisionId ∧
    r.status = .confirmed ∧ v.amount = r.amount

structure DisputeInv (db : DisputeDb) : Prop where
  settlements : UniqueKey (·.decisionId) db.settlement.settlements
  checked : ∀ d ∈ db.disputes, d.Valid
  valid : DisputesValid db.disputes
  confirmed : ∀ d ∈ db.disputes, ∃ r ∈ db.settlement.settlements, r.decisionId = d.decisionId ∧
    r.status = .confirmed
  bond : ∀ d ∈ db.disputes, d.bondStatus = d.status.bond
  oneReversal : UniqueKey (·.decisionId) db.reversals
  reversed : ∀ d ∈ db.disputes, d.status = .reversed →
    ∃ v ∈ db.reversals, v.decisionId = d.decisionId
  booked : ∀ v ∈ db.reversals, ∃ d ∈ db.disputes, Booked db v d

variable {numeric : String → Option ℚ}

theorem isLive_of_ne (h : d.status ≠ .withdrawn) : d.isLive = true :=
  decide_eq_true h

theorem isLive_of_decided (h : d.status = .upheld ∨ d.status = .reversed) : d.isLive = true := by
  rcases h with h | h <;> exact isLive_of_ne (by rw [h]; exact fun h => nomatch h)

theorem disputeInv_start (policies : OrdMap String String) (claims : List ClaimRow) :
    DisputeInv (DisputeDb.start policies claims) := by
  refine ⟨?_, ?_, ⟨?_, ?_, ?_⟩, ?_, ?_, ?_, ?_, ?_⟩
  all_goals simp [DisputeDb.start, UniqueKey, UniqueWhere]

/-! ### Settlement transactions -/

theorem DisputeInv.settlement (h : DisputeInv db) (call : SettlementCall) :
    DisputeInv (disputeStep numeric windows db (.settlement call)) ∧
      Keeps db (disputeStep numeric windows db (.settlement call)) := by
  obtain ⟨hkey, _, heff, _⟩ :=
    @settlementStep_effect numeric ⟨db.settlement, []⟩ h.settlements call
  -- Disputed settlements are confirmed, and confirmed rows stay.
  have hkept : ∀ r ∈ db.settlement.settlements, r.status = .confirmed →
      r ∈ (settlementStep numeric ⟨db.settlement, []⟩ call).db.settlements :=
    fun _ => heff.confirmed_mem h.settlements
  refine ⟨⟨hkey, h.checked, h.valid, ?_, h.bond, h.oneReversal, h.reversed, ?_⟩,
    fun d hd => ⟨d, hd, rfl, rfl⟩, fun _ hd _ => hd, fun _ _ _ _ hd' _ => hd', ?_⟩
  · intro d hd
    obtain ⟨r, hr, hdec, hstat⟩ := h.confirmed d hd
    exact ⟨r, hkept r hr hstat, hdec, hstat⟩
  · intro v hv
    obtain ⟨d, hd, hbooked⟩ := h.booked v hv
    obtain ⟨r, hr, hdec, hstat, hamt⟩ := hbooked.amount
    exact ⟨d, hd, { hbooked with amount := ⟨r, hkept r hr hstat, hdec, hstat, hamt⟩ }⟩
  · intro d hd r hr hdec
    obtain ⟨row, hrow, hdec', hstat⟩ := h.confirmed d hd
    rw [h.settlements.eq hr hrow (hdec.trans hdec'.symm)]
    exact hkept row hrow hstat

/-! ### Opening -/

theorem DisputeInv.openDispute (h : DisputeInv db) {input : OpenDisputeInput}
    (hopen : openDispute windows db input now id = .ok (db', id')) :
    DisputeInv db' ∧ Keeps db db' := by
  obtain ⟨new, hstat, hbond, hconf, hchk, hval, rfl⟩ := openDispute_ok hopen
  have hnew : new.isLive = true := isLive_of_ne (by rw [hstat]; exact fun h => nomatch h)
  refine ⟨⟨h.settlements, hchk, hval, ?_, ?_, h.oneReversal, ?_, ?_⟩, ?_, ?_, ?_,
    fun _ _ _ hr _ => hr⟩
  · exact forall_mem_snoc.2 ⟨h.confirmed, hconf⟩
  · refine forall_mem_snoc.2 ⟨h.bond, ?_⟩
    rw [hbond, hstat]
    rfl
  · refine forall_mem_snoc.2 ⟨h.reversed, fun hrev => ?_⟩
    rw [hstat] at hrev
    cases hrev
  · intro v hv
    obtain ⟨d, hd, hbooked⟩ := h.booked v hv
    exact ⟨d, mem_append_left _ hd, { hbooked with }⟩
  · intro d hd
    exact ⟨d, mem_append_left _ hd, rfl, rfl⟩
  · intro d hd _
    exact mem_append_left _ hd
  · intro d hd hdecided d' hd' hdec
    rcases mem_snoc.1 hd' with hold | rfl
    · exact hold
    -- The decided dispute and the new one would both be live.
    have heq := hval.live d (mem_append_left _ hd) d' hd' (isLive_of_decided hdecided) hnew
      hdec.symm
    rw [heq, hstat] at hdecided
    rcases hdecided with hdecided | hdecided <;> cases hdecided

/-! ### Moving -/

variable {status target : DisputeStatus}

theorem not_isFinal_of_mem (h : target ∈ transitions status) : status.isFinal = false := by
  cases status with
  | «open» | underReview => rfl
  | upheld | reversed | withdrawn => cases h

theorem ne_withdrawn_of_mem (h : target ∈ transitions status) : status ≠ .withdrawn := by
  rintro rfl
  cases h

/-- The bond follows a move. -/
theorem bond_moveTo (htgt : input.target ∈ transitions d.status)
    (hbond : d.bondStatus = d.status.bond) :
    (d.moveTo input now).bondStatus = input.target.bond := by
  simp only [Dispute.moveTo, DisputeStatus.bond] at hbond ⊢
  cases hresolution : bondOnResolution input.target with
  | some => rfl
  | none =>
    -- Only review leaves the bond alone, and it starts from an open dispute.
    rw [hbond]
    cases hstat : d.status with
    | «open» | underReview => rfl
    | upheld | reversed | withdrawn =>
      rw [hstat] at htgt
      cases htgt

theorem DisputeInv.transition (h : DisputeInv db)
    (hmove : transition db id input now = .ok (db', ())) : DisputeInv db' ∧ Keeps db db' := by
  obtain ⟨moved, hmov, r, hr, hdec, htgt, reversals, hbook, hchk, hval, hdb⟩ := transition_ok hmove
  obtain ⟨huniq, hold, hnew, hadded⟩ := bookReversal_ok hbook h.oneReversal
  have hmem : ∀ d', d' ∈ db'.disputes ↔
      d' = moved.moveTo input now ∨ (d' ∈ db.disputes ∧ d'.id ≠ moved.id) := by
    intro d'
    rw [hdb]
    refine h.valid.ids.mem_updateWhere hmov (by simp) ?_
    intro d _ hd
    exact of_decide_eq_true (Bool.and_eq_true_iff.1 hd).1
  -- Final disputes are not the one that moves.
  have hfin : ∀ d ∈ db.disputes, d.status.isFinal = true → d ∈ db'.disputes := by
    intro d hd hstat
    refine (hmem d).2 (.inr ⟨hd, ?_⟩)
    intro hid
    rw [h.valid.ids.eq hd hmov hid, not_isFinal_of_mem htgt] at hstat
    cases hstat
  obtain ⟨row, hrow, hdec', hstat⟩ := h.confirmed moved hmov
  obtain rfl := h.settlements.eq hr hrow (hdec.trans hdec'.symm)
  subst hdb
  refine ⟨⟨h.settlements, hchk, hval, ?_, ?_, huniq, ?_, ?_⟩, ?_, hfin, ?_,
    fun _ _ _ hr' _ => hr'⟩
  · intro d' hd'
    rcases (hmem d').1 hd' with rfl | ⟨hd, _⟩
    · exact ⟨r, hr, hdec, hstat⟩
    · exact h.confirmed d' hd
  · intro d' hd'
    rcases (hmem d').1 hd' with rfl | ⟨hd, _⟩
    · exact bond_moveTo htgt (h.bond moved hmov)
    · exact h.bond d' hd
  · intro d' hd' hrev
    rcases (hmem d').1 hd' with rfl | ⟨hd, _⟩
    · exact ⟨reversalFor moved r, hnew hrev, rfl⟩
    · obtain ⟨v, hv, hvd⟩ := h.reversed d' hd hrev
      exact ⟨v, hold v hv, hvd⟩
  · intro v hv
    rcases hadded v hv with hv | ⟨rfl, hrev, hrepl⟩
    · obtain ⟨d, hd, hb⟩ := h.booked v hv
      exact ⟨d, hfin d hd (by rw [hb.status]; rfl), { hb with }⟩
    refine ⟨moved.moveTo input now, (hmem _).2 (.inl rfl), rfl, rfl, hrev, ?_,
      ⟨r, hr, hdec, hstat, rfl⟩⟩
    simp only [Dispute.moveTo, if_pos hrev]
    obtain ⟨replacement, hsome⟩ := Option.isSome_iff_exists.1 hrepl
    rw [hsome]
    rfl
  · intro d hd
    by_cases hid : d.id = moved.id
    · rw [h.valid.ids.eq hd hmov hid]
      exact ⟨moved.moveTo input now, (hmem _).2 (.inl rfl), rfl, rfl⟩
    · exact ⟨d, (hmem d).2 (.inr ⟨hd, hid⟩), rfl, rfl⟩
  · intro d hd hdecided d' hd' hsame
    rcases (hmem d').1 hd' with rfl | ⟨hd', _⟩
    · -- The dispute that moves is live, so it would be the decided one.
      have heq := h.valid.live d hd moved hmov (isLive_of_decided hdecided)
        (isLive_of_ne (ne_withdrawn_of_mem htgt)) hsame.symm
      rw [heq] at hdecided
      rcases hdecided with hstat | hstat <;> rw [hstat] at htgt <;> cases htgt
    · exact hd'

theorem DisputeInv.step (h : DisputeInv db) (call : DisputeCall) :
    DisputeInv (disputeStep numeric windows db call) ∧
      Keeps db (disputeStep numeric windows db call) := by
  cases call with
  | openDispute input now id =>
    simp only [disputeStep]
    rcases hcall : Claim.openDispute windows db input now id with e | ⟨db', id'⟩
    · exact ⟨h, Keeps.refl db⟩
    · exact h.openDispute hcall
  | transition id input now =>
    simp only [disputeStep]
    rcases hcall : Claim.transition db id input now with e | ⟨db', _⟩
    · exact ⟨h, Keeps.refl db⟩
    · exact h.transition hcall
  | settlement call => exact h.settlement call

theorem DisputeInv.sound (h : DisputeInv db) : DisputesSound db := by
  refine ⟨?_, h.oneReversal, ?_, ?_, ?_, ?_, ?_, h.confirmed⟩
  · intro d hd d' hd' hlive hlive' hsame
    exact h.valid.live d hd d' hd' (isLive_of_ne hlive) (isLive_of_ne hlive') hsame
  · intro decisionId
    constructor
    · rintro ⟨v, hv, rfl⟩
      obtain ⟨d, hd, hb⟩ := h.booked v hv
      exact ⟨d, hd, hb.decision.symm, hb.status⟩
    · rintro ⟨d, hd, rfl, hstat⟩
      exact h.reversed d hd hstat
  · intro v hv d hd hdec hstat
    obtain ⟨d₀, hd₀, hb⟩ := h.booked v hv
    -- The reversal's own dispute is the one live dispute of the decision.
    have heq : d₀ = d := h.valid.live d₀ hd₀ d hd (isLive_of_decided (.inr hb.status))
      (isLive_of_decided (.inr hstat)) (hb.decision.symm.trans hdec.symm)
    subst heq
    obtain ⟨r, hr, hrDecision, _, hamt⟩ := hb.amount
    obtain ⟨replacement, hsome⟩ := Option.isSome_iff_exists.1 hb.replaced
    refine ⟨hb.dispute, ?_, replacement, hsome, ?_, ?_⟩
    · intro r' hr' hr'Decision
      rw [h.settlements.eq hr' hr (hr'Decision.trans hrDecision.symm)]
      exact hamt
    · rintro rfl
      exact (h.checked d₀ hd).2.2 hsome
    · intro d' hd' hrepl
      exact h.valid.replacements d' hd' d₀ hd (Option.isSome_iff_exists.2 ⟨_, hrepl⟩)
        hb.replaced (hrepl.trans hsome.symm)
  all_goals
    intro d hd
    rw [h.bond d hd]
    cases d.status <;> decide

/-- From empty tables, along every run of dispute and settlement transactions, the tables agree, and
whatever follows leaves resolved disputes and disputed settlements alone. -/
theorem disputes_sound (numeric : String → Option ℚ) (windows : OrdMap String ℚ)
    (policies : OrdMap String String) (claims : List ClaimRow) {db later : DisputeDb}
    (hrun : RunWhere (fun a call b => disputeStep numeric windows a call = b) (fun _ _ => True)
      (.start policies claims) db)
    (hlater : RunWhere (fun a call b => disputeStep numeric windows a call = b) (fun _ _ => True)
      db later) : DisputesSound db ∧ Keeps db later := by
  have hinv : DisputeInv db := by
    refine hrun.invariant _ (disputeInv_start policies claims) ?_
    rintro a call _ ha _ rfl
    exact (ha.step call).1
  have hkeeps : DisputeInv later ∧ Keeps db later := by
    refine hlater.invariant (fun db' => DisputeInv db' ∧ Keeps db db') ⟨hinv, Keeps.refl db⟩ ?_
    rintro a call _ ⟨ha, hka⟩ _ rfl
    exact ⟨(ha.step call).1, hka.trans (ha.step call).2⟩
  exact ⟨hinv.sound, hkeeps.2⟩

/-! ## A reversed payout -/

def uuidOf (last : String) : String := "00000000-0000-0000-0000-00000000000" ++ last

/-- A payout is confirmed, disputed and reversed. -/
def reversedPayout : List DisputeCall :=
  [.settlement (.claim "d" "policy" "10" "\x7b\x7d" 0),
    .settlement (.markConfirmed "d" "policy" "hash" 1),
    .openDispute ⟨"d", "wrong price", "bond", "holder"⟩ 2 (uuidOf "1"),
    .transition (uuidOf "1") ⟨.underReview, none, none⟩ 3,
    .transition (uuidOf "1") ⟨.reversed, some "recomputed", some " e "⟩ 4]

/-- Afterwards the decision is disputed again and its settlement claimed again, in vain. -/
def afterReversal : List DisputeCall :=
  [.openDispute ⟨"d", "once more", "bond", "holder"⟩ 5 (uuidOf "2"),
    .settlement (.claim "d" "policy" "20" "\x7b\x7d" 6)]

def tenOnly (text : String) : Option ℚ := if text = "10" then some 10 else none

def onePolicy : DisputeDb := .start (OrdMap.empty.set "policy" "stablecoin_depeg") []

/-- The tables after the payout was reversed. -/
def reversedDb : DisputeDb := reversedPayout.foldl (disputeStep tenOnly OrdMap.empty) onePolicy

theorem disputes_sound_reversedPayout :
    DisputesSound reversedDb ∧
      Keeps reversedDb (afterReversal.foldl (disputeStep tenOnly OrdMap.empty) reversedDb) ∧
      reversedDb.reversals = [⟨uuidOf "1", "d", "policy", 10, .owed⟩] := by
  refine and_assoc.1 ⟨disputes_sound tenOnly OrdMap.empty _ _
    (RunWhere.of_foldl (fun _ _ => trivial) onePolicy)
    (RunWhere.of_foldl (fun _ _ => trivial) reversedDb), ?_⟩
  decide +kernel

end Refract.Claim
