import Refract.Claim.SettlementRepository
import Refract.Lib.Traces

/-!
# A policy settles at most once

Over all interleavings of repository calls: a policy has at most one settlement that is pending,
submitted or confirmed, settlements move along `ClaimSettlementStatus.allows` only, a policy is
claimed again only after the settlement of the earlier claim failed, and never after one was
confirmed (`settlements_exclusive`).

The proof says once what a call can do to the table and to the trace (`SettlementEffect`); the
invariant `SettlementInv` ties the trace to the rows: after a claim its row is open until it is
noted as failed, and a confirmed row stays.
-/

namespace Refract.Claim

open Lib List Settlement SettlementEvent

/-! ## The property -/

/-- The moves of a settlement. -/
def ClaimSettlementStatus.allows : ClaimSettlementStatus → ClaimSettlementStatus → Bool
  | .pending, .submitted | .pending, .confirmed | .submitted, .confirmed => true
  | .pending, .failed | .failed, .pending => true
  | _, _ => false

/-- What holds of the table and the trace at any time. -/
structure ExclusiveSettlements (s : SettlementState) : Prop where
  oneRow : UniqueKey (·.decisionId) s.db.settlements
  oneOpen : UniqueWhere isOpen (·.policyId) s.db.settlements
  reclaimed : ∀ decisionId policyId, Between (· = .claimed decisionId policyId)
    (fun e => ∃ other, e = .claimed other policyId) (.failed decisionId ∈ ·) s.trace
  paidOnce : ∀ decisionId policyId, .claimed decisionId policyId ∈ s.trace →
    FollowedBy (· = .confirmed decisionId) (fun post => ∀ other, .claimed other policyId ∉ post)
      s.trace

/-- What one call does to settlements. -/
structure AllowedMoves (rows rows' : List Settlement) : Prop where
  moved : ∀ r ∈ rows, ∃ r' ∈ rows', r'.decisionId = r.decisionId ∧ r'.policyId = r.policyId ∧
    (r'.status = r.status ∨ r.status.allows r'.status = true)
  added : ∀ r' ∈ rows', (∃ r ∈ rows, r.decisionId = r'.decisionId) ∨ r'.status = .pending
  final : ∀ r ∈ rows, r.status = .confirmed → r ∈ rows'

/-! ## What a call can do -/

/-- The table with a row in place of the one with its decision id. -/
def Puts (row : Settlement) (rows rows' : List Settlement) : Prop :=
  ∀ r', r' ∈ rows' ↔ r' = row ∨ (r' ∈ rows ∧ r'.decisionId ≠ row.decisionId)

/-- What is noted about a status that is set. -/
def Settlement.noted (row : Settlement) : List SettlementEvent :=
  match row.status with
  | .confirmed => [.confirmed row.decisionId]
  | .failed => [.failed row.decisionId]
  | .pending | .submitted => []

inductive SettlementEffect (s s' : SettlementState) : Option (String × String) → Prop where
  | none (rows : s'.db.settlements = s.db.settlements) (trace : s'.trace = s.trace) :
      SettlementEffect s s' none
  | claimed (row : Settlement) (policyId : String)
      (puts : Puts row s.db.settlements s'.db.settlements) (pending : row.status = .pending)
      (free : ∀ r ∈ s.db.settlements, r.decisionId = row.decisionId →
        r.status = .failed ∧ r.policyId = row.policyId)
      (policy : row.policyId = policyId ∨ ∃ r ∈ s.db.settlements, r.decisionId = row.decisionId)
      (index : UniqueWhere isOpen (·.policyId) s'.db.settlements)
      (trace : s'.trace = s.trace ++ [.claimed row.decisionId policyId]) :
      SettlementEffect s s' (some (row.decisionId, policyId))
  | moved (old row : Settlement) (mem : old ∈ s.db.settlements) (isOpen : old.isOpen = true)
      (puts : Puts row s.db.settlements s'.db.settlements)
      (decision : row.decisionId = old.decisionId) (policy : row.policyId = old.policyId)
      (allowed : old.status.allows row.status = true)
      (trace : s'.trace = s.trace ++ row.noted) : SettlementEffect s s' none

variable {claimed : Option (String × String)} {r : Settlement} {numeric : String → Option ℚ}
  {s s' : SettlementState} {db : SettlementDb} {decisionId policyId amount evidence : String}
  {now : ℚ}

theorem findByDecisionId_eq_none (h : findByDecisionId db decisionId = none) :
    ∀ r ∈ db.settlements, r.decisionId ≠ decisionId := by
  intro r hr hid
  exact find?_eq_none.1 h r hr (decide_eq_true hid)

theorem findByDecisionId_eq_some {row : Settlement}
    (h : findByDecisionId db decisionId = some row) :
    row ∈ db.settlements ∧ row.decisionId = decisionId :=
  findByKey_some h

/-- The effect of a guarded update that notes what it did. -/
theorem moveSettlement_effect {asks : Option (String × String)}
    (hkey : UniqueKey (·.decisionId) s.db.settlements) {source : ClaimSettlementStatus → Bool}
    {change : Settlement → Settlement} (hdec : ∀ r, (change r).decisionId = r.decisionId)
    (hpol : ∀ r, (change r).policyId = r.policyId)
    (hallow : ∀ r : Settlement, source r.status = true →
      r.isOpen = true ∧ r.status.allows (change r).status = true)
    (hrows : s'.db.settlements = (moveSettlement s.db decisionId source change).1.settlements)
    (hsame : (moveSettlement s.db decisionId source change).2 = 0 → s'.trace = s.trace)
    (hnoted : (moveSettlement s.db decisionId source change).2 ≠ 0 →
      ∀ r : Settlement, r.decisionId = decisionId → s'.trace = s.trace ++ (change r).noted) :
    UniqueKey (·.decisionId) s'.db.settlements ∧
      ∃ claimed, SettlementEffect s s' claimed ∧ (claimed = none ∨ claimed = asks) := by
  refine ⟨?_, none, ?_, .inl rfl⟩
  · rw [hrows]
    exact hkey.updateWhere fun r _ _ => hdec r
  cases hsel : s.db.settlements.filter
      fun r => decide (r.decisionId = decisionId) && source r.status with
  | nil =>
    refine .none (hrows.trans (updateWhere_of_none ?_)) (hsame (congrArg List.length hsel))
    intro r hr
    exact Bool.eq_false_iff.2 (filter_eq_nil_iff.1 hsel r hr)
  | cons old _ =>
    -- The row that qualifies is the only one of the decision.
    have hmem : old ∈ s.db.settlements.filter _ := hsel ▸ mem_cons_self
    obtain ⟨hold, hqual⟩ := mem_filter.1 hmem
    obtain ⟨hid, hsrc⟩ := Bool.and_eq_true_iff.1 hqual
    obtain ⟨hopen, hmove⟩ := hallow old hsrc
    refine .moved old (change old) hold hopen ?_ (hdec old) (hpol old) hmove
      (hnoted (length_pos_of_mem hmem).ne' old (of_decide_eq_true hid))
    intro r'
    rw [hrows, hdec old]
    refine hkey.mem_updateWhere hold hqual ?_
    intro r _ hr
    rw [of_decide_eq_true hid]
    exact of_decide_eq_true (Bool.and_eq_true_iff.1 hr).1

variable {db' : SettlementDb}

/-- A row that the upsert returned is pending now, and was new or failed before. -/
theorem upsertSettlement_true (hkey : UniqueKey (·.decisionId) db.settlements)
    (h : upsertSettlement numeric db decisionId policyId amount evidence now = .ok (db', true)) :
    UniqueKey (·.decisionId) db'.settlements ∧ UniqueWhere isOpen (·.policyId) db'.settlements ∧
      ∃ row : Settlement, row.decisionId = decisionId ∧ row.status = .pending ∧
        Puts row db.settlements db'.settlements ∧
        (∀ r ∈ db.settlements, r.decisionId = row.decisionId →
          r.status = .failed ∧ r.policyId = row.policyId) ∧
        (row.policyId = policyId ∨ ∃ r ∈ db.settlements, r.decisionId = row.decisionId) := by
  simp only [upsertSettlement] at h
  split at h
  · cases h
  rename_i parsed _
  obtain ⟨_, _, h⟩ := exceptBind_eq_ok h
  split at h
  · -- No row of the decision: the row is inserted.
    rename_i hnone
    have hfresh := findByDecisionId_eq_none hnone
    obtain ⟨_, hindex, h⟩ := exceptBind_eq_ok h
    obtain ⟨_, _, h⟩ := exceptBind_eq_ok h
    cases h
    refine ⟨hkey.insert hfresh, enforce_eq_ok.1 hindex,
      ⟨decisionId, policyId, parsed, .pending, none, evidence, none, now⟩, rfl, rfl, ?_, ?_,
      .inl rfl⟩
    · intro r'
      rw [mem_append, mem_singleton, or_comm]
      refine or_congr_right ⟨fun hr' => ⟨hr', hfresh r' hr'⟩, And.left⟩
    · intro r hr hid
      exact absurd hid (hfresh r hr)
  · rename_i existing hsome
    obtain ⟨hmem, hid⟩ := findByDecisionId_eq_some hsome
    split at h
    · rename_i hfailed
      obtain ⟨_, hindex, h⟩ := exceptBind_eq_ok h
      cases h
      refine ⟨hkey.updateWhere fun _ _ _ => rfl, enforce_eq_ok.1 hindex,
        existing.reclaimed parsed evidence, hid, rfl, ?_, ?_, .inr ⟨existing, hmem, rfl⟩⟩
      · intro r'
        refine hkey.mem_updateWhere hmem (decide_eq_true hid) ?_
        intro r _ hr
        rw [hid]
        exact of_decide_eq_true hr
      · intro r hr hsame
        rw [hkey.eq hr hmem hsame]
        exact ⟨hfailed, rfl⟩
    · cases h

theorem upsertSettlement_false
    (h : upsertSettlement numeric db decisionId policyId amount evidence now = .ok (db', false)) :
    db' = db := by
  simp only [upsertSettlement] at h
  split at h
  · cases h
  obtain ⟨_, _, h⟩ := exceptBind_eq_ok h
  split at h
  · iterate 2 obtain ⟨_, _, h⟩ := exceptBind_eq_ok h
    cases h
  split at h
  · obtain ⟨_, _, h⟩ := exceptBind_eq_ok h
    cases h
  · cases h
    rfl

theorem claim_ok {held : Bool}
    (h : claim numeric db decisionId policyId amount evidence now = .ok (db', held)) :
    (db' = db ∧ held = false) ∨
      upsertSettlement numeric db decisionId policyId amount evidence now = .ok (db', held) := by
  simp only [claim] at h
  split at h
  · cases h
    exact .inl ⟨rfl, rfl⟩
  · exact .inr h

/-- The decision and the policy that a call asks to claim. -/
def SettlementCall.asks : SettlementCall → Option (String × String)
  | .claim decisionId policyId .. => some (decisionId, policyId)
  | .markSubmitted .. | .markConfirmed .. | .markFailed .. => none

theorem settlementStep_effect (hkey : UniqueKey (·.decisionId) s.db.settlements)
    (call : SettlementCall) :
    UniqueKey (·.decisionId) (settlementStep numeric s call).db.settlements ∧
      ∃ claimed, SettlementEffect s (settlementStep numeric s call) claimed ∧
        (claimed = none ∨ claimed = call.asks) := by
  cases call with
  | claim _ policyId =>
    simp only [settlementStep]
    split
    · rename_i db' hcall
      rcases claim_ok hcall with ⟨_, hheld⟩ | hupsert
      · cases hheld
      obtain ⟨hkey', hindex, row, rfl, hpend, hputs, hfree, hpol⟩ :=
        upsertSettlement_true hkey hupsert
      exact ⟨hkey', _, .claimed row policyId hputs hpend hfree hpol hindex rfl, .inr rfl⟩
    · rename_i db' hcall
      have heq : db' = s.db := by
        rcases claim_ok hcall with ⟨heq, _⟩ | hupsert
        · exact heq
        · exact upsertSettlement_false hupsert
      subst heq
      exact ⟨hkey, none, .none rfl rfl, .inl rfl⟩
    · exact ⟨hkey, none, .none rfl rfl, .inl rfl⟩
  | markSubmitted decisionId txHash =>
    simp only [settlementStep]
    rcases hcall : markSubmitted s.db decisionId txHash with e | ⟨db', count⟩
    · exact ⟨hkey, none, .none rfl rfl, .inl rfl⟩
    obtain ⟨stored, _, hmov⟩ := exceptBind_eq_ok hcall
    have hrows := congrArg (fun result => result.1.settlements) (Except.ok.inj hmov)
    exact @moveSettlement_effect s ⟨db', s.trace⟩ decisionId _ hkey
      (fun status => decide (status = .pending))
      (fun r => { r with status := .submitted, txHash := some stored })
      (fun _ => rfl) (fun _ => rfl)
      (fun r hr => by simp [isOpen, of_decide_eq_true hr, ClaimSettlementStatus.allows])
      hrows.symm (fun _ => rfl) fun _ _ _ => (append_nil _).symm
  | markConfirmed decisionId _ txHash =>
    simp only [settlementStep, markConfirmed]
    split
    · rename_i db' hcall
      split at hcall
      · cases hcall
      rename_i stored _
      split at hcall
      · cases hcall
      rename_i hcnt
      have hrows := congrArg SettlementDb.settlements (Except.ok.inj hcall)
      exact @moveSettlement_effect s
        ⟨db', s.trace ++ [confirmed decisionId]⟩ decisionId _ hkey
        (fun status => status = .pending || status = .submitted)
        (fun r => { r with status := .confirmed, txHash := some stored })
        (fun _ => rfl) (fun _ => rfl)
        (fun r hr => by
          rcases Bool.or_eq_true_iff.1 hr with hstat | hstat <;>
            simp [isOpen, of_decide_eq_true hstat, ClaimSettlementStatus.allows])
        hrows.symm (fun hzero => absurd hzero hcnt) fun _ r hid => by rw [← hid]; rfl
    · exact ⟨hkey, none, .none rfl rfl, .inl rfl⟩
  | markFailed decisionId error =>
    have hmov (s' : SettlementState) := @moveSettlement_effect s s' decisionId none hkey
      (fun status => decide (status = .pending))
      (fun r => { r with status := .failed, lastError := some error })
      (fun _ => rfl) (fun _ => rfl)
      (fun r hr => by simp [isOpen, of_decide_eq_true hr, ClaimSettlementStatus.allows])
    simp only [settlementStep]
    split
    · rename_i db' hcall
      exact hmov ⟨db', s.trace⟩
        (congrArg (fun result => result.1.settlements) hcall).symm (fun _ => rfl)
        fun hne => absurd (congrArg Prod.snd hcall) hne
    · rename_i db' count hcall
      exact hmov ⟨db', s.trace ++ [failed decisionId]⟩
        (congrArg (fun result => result.1.settlements) hcall).symm
        (fun hzero => absurd ((congrArg Prod.snd hcall).symm.trans hzero) (Nat.succ_ne_zero _))
        fun _ r hid => by rw [← hid]; rfl

/-! ### Consequences for the table -/

theorem SettlementEffect.confirmed_mem (h : SettlementEffect s s' claimed)
    (hkey : UniqueKey (·.decisionId) s.db.settlements) (hr : r ∈ s.db.settlements)
    (hconf : r.status = .confirmed) : r ∈ s'.db.settlements := by
  cases h with
  | none rows =>
    rw [rows]
    exact hr
  | claimed _ _ puts _ free =>
    refine (puts r).2 (.inr ⟨hr, ?_⟩)
    intro hid
    rw [(free r hr hid).1] at hconf
    cases hconf
  | moved _ _ mem _ puts decision _ allowed =>
    refine (puts r).2 (.inr ⟨hr, ?_⟩)
    intro hid
    rw [← hkey.eq hr mem (hid.trans decision), hconf] at allowed
    cases allowed

/-- A row that is open stays so, unless it is the one that is noted as failed. -/
theorem SettlementEffect.open_mem (h : SettlementEffect s s' claimed) (hr : r ∈ s.db.settlements)
    (hopen : r.isOpen = true) :
    (∃ r' ∈ s'.db.settlements, r'.decisionId = r.decisionId ∧ r'.isOpen = true) ∨
      s'.trace = s.trace ++ [failed r.decisionId] := by
  cases h with
  | none rows =>
    rw [rows]
    exact .inl ⟨r, hr, rfl, hopen⟩
  | claimed _ _ puts _ free =>
    refine .inl ⟨r, (puts r).2 (.inr ⟨hr, ?_⟩), rfl, hopen⟩
    intro hid
    simp only [isOpen, (free r hr hid).1] at hopen
    cases hopen
  | moved _ row _ _ puts _ _ _ trace =>
    by_cases hid : r.decisionId = row.decisionId
    · cases hstat : row.status with
      | failed =>
        refine .inr ?_
        rw [trace, hid, noted, hstat]
      | pending | submitted | confirmed =>
        refine .inl ⟨row, (puts row).2 (.inl rfl), hid.symm, ?_⟩
        simp only [isOpen, hstat]
    · exact .inl ⟨r, (puts r).2 (.inr ⟨hr, hid⟩), rfl, hopen⟩

theorem SettlementEffect.allowedMoves (h : SettlementEffect s s' claimed)
    (hkey : UniqueKey (·.decisionId) s.db.settlements) :
    AllowedMoves s.db.settlements s'.db.settlements := by
  refine ⟨?_, ?_, fun _ => h.confirmed_mem hkey⟩
  · intro r hr
    cases h with
    | none rows =>
      rw [rows]
      exact ⟨r, hr, rfl, rfl, .inl rfl⟩
    | claimed row _ puts pending free =>
      by_cases hid : r.decisionId = row.decisionId
      · obtain ⟨hfailed, hpol⟩ := free r hr hid
        refine ⟨row, (puts row).2 (.inl rfl), hid.symm, hpol.symm, .inr ?_⟩
        rw [hfailed, pending]
        rfl
      · exact ⟨r, (puts r).2 (.inr ⟨hr, hid⟩), rfl, rfl, .inl rfl⟩
    | moved _ row mem _ puts decision policy allowed =>
      by_cases hid : r.decisionId = row.decisionId
      · rw [hkey.eq hr mem (hid.trans decision)]
        exact ⟨row, (puts row).2 (.inl rfl), decision, policy, .inr allowed⟩
      · exact ⟨r, (puts r).2 (.inr ⟨hr, hid⟩), rfl, rfl, .inl rfl⟩
  · intro r' hr'
    cases h with
    | none rows =>
      rw [rows] at hr'
      exact .inl ⟨r', hr', rfl⟩
    | claimed _ _ puts pending =>
      rcases (puts r').1 hr' with rfl | ⟨hmem, _⟩
      · exact .inr pending
      · exact .inl ⟨r', hmem, rfl⟩
    | moved old _ mem _ puts decision =>
      rcases (puts r').1 hr' with rfl | ⟨hmem, _⟩
      · exact .inl ⟨old, mem, decision.symm⟩
      · exact .inl ⟨r', hmem, rfl⟩

/-! ## The invariant -/

/-- What the trace says about the rows. -/
structure TraceInv (policyOf : String → String) (rows : List Settlement)
    (trace : List SettlementEvent) : Prop where
  claimedFor : ∀ decisionId policyId, .claimed decisionId policyId ∈ trace →
    policyId = policyOf decisionId
  confirmed : ∀ decisionId, .confirmed decisionId ∈ trace →
    ∃ r ∈ rows, r.decisionId = decisionId ∧ r.status = .confirmed
  held : ∀ decisionId policyId, FollowedBy (· = .claimed decisionId policyId) (fun post =>
    .failed decisionId ∈ post ∨ ∃ r ∈ rows, r.decisionId = decisionId ∧ r.isOpen = true) trace
  reclaimed : ∀ decisionId policyId, Between (· = .claimed decisionId policyId)
    (fun e => ∃ other, e = .claimed other policyId) (.failed decisionId ∈ ·) trace
  paidOnce : ∀ decisionId, FollowedBy (· = .confirmed decisionId)
    (fun post => ∀ other, .claimed other (policyOf decisionId) ∉ post) trace

/-- The rows and the trace. -/
structure SettlementInv (policyOf : String → String) (s : SettlementState) : Prop where
  key : UniqueKey (·.decisionId) s.db.settlements
  index : UniqueWhere isOpen (·.policyId) s.db.settlements
  policy : ∀ r ∈ s.db.settlements, r.policyId = policyOf r.decisionId
  trace : TraceInv policyOf s.db.settlements s.trace

variable {policyOf : String → String} {rows rows' : List Settlement} {trace : List SettlementEvent}

/-- A step without an event keeps open and confirmed rows. -/
theorem TraceInv.of_rows (h : TraceInv policyOf rows trace) (hopen : ∀ r ∈ rows, r.isOpen = true →
      ∃ r' ∈ rows', r'.decisionId = r.decisionId ∧ r'.isOpen = true)
    (hconf : ∀ r ∈ rows, r.status = .confirmed → r ∈ rows') : TraceInv policyOf rows' trace := by
  refine ⟨h.claimedFor, ?_, ?_, h.reclaimed, h.paidOnce⟩
  · intro decisionId hmem
    obtain ⟨r, hr, hid, hstat⟩ := h.confirmed decisionId hmem
    exact ⟨r, hconf r hr hstat, hid, hstat⟩
  · intro decisionId policyId pre x post hx heq
    rcases h.held decisionId policyId pre x post hx heq with hfailed | ⟨r, hr, rfl, hstat⟩
    · exact .inl hfailed
    · exact .inr (hopen r hr hstat)

/-- A step with an event. A claim finds no open row of its policy and leaves one behind; only a
failure closes a row. -/
theorem TraceInv.snoc (h : TraceInv policyOf rows trace) (e : SettlementEvent)
    (hopen : ∀ r ∈ rows, r.isOpen = true → e = .failed r.decisionId ∨
      ∃ r' ∈ rows', r'.decisionId = r.decisionId ∧ r'.isOpen = true)
    (hconf : ∀ r ∈ rows, r.status = .confirmed → r ∈ rows')
    (hclaim : ∀ decisionId policyId, e = .claimed decisionId policyId →
      policyId = policyOf decisionId ∧
      (∃ r ∈ rows', r.decisionId = decisionId ∧ r.isOpen = true) ∧
      ∀ r ∈ rows, r.isOpen = true → policyOf r.decisionId ≠ policyId)
    (hconfirm : ∀ decisionId, e = .confirmed decisionId →
      ∃ r ∈ rows', r.decisionId = decisionId ∧ r.status = .confirmed) :
    TraceInv policyOf rows' (trace ++ [e]) := by
  refine ⟨?_, ?_, ?_, ?_, ?_⟩
  · intro decisionId policyId hmem
    rcases mem_snoc.1 hmem with hold | rfl
    · exact h.claimedFor decisionId policyId hold
    · exact (hclaim decisionId policyId rfl).1
  · intro decisionId hmem
    rcases mem_snoc.1 hmem with hold | rfl
    · obtain ⟨r, hr, hid, hstat⟩ := h.confirmed decisionId hold
      exact ⟨r, hconf r hr hstat, hid, hstat⟩
    · exact hconfirm decisionId rfl
  · intro decisionId policyId
    refine (h.held decisionId policyId).snoc e ?_ ?_
    · rintro post (hfailed | ⟨r, hr, rfl, hstat⟩)
      · exact .inl (mem_append_left _ hfailed)
      · rcases hopen r hr hstat with rfl | hkept
        · exact .inl (mem_append_right _ (mem_singleton.2 rfl))
        · exact .inr hkept
    · intro hclaimed
      exact .inr (hclaim decisionId policyId hclaimed).2.1
  · intro decisionId policyId
    refine (h.reclaimed decisionId policyId).snoc e ?_
    rintro ⟨other, hoth⟩ pre x post hx heq
    rcases h.held decisionId policyId pre x post hx heq with hfailed | ⟨r, hr, rfl, hstat⟩
    · exact hfailed
    -- The row of the earlier claim would still be open.
    refine absurd ?_ ((hclaim other policyId hoth).2.2 r hr hstat)
    refine (h.claimedFor r.decisionId policyId ?_).symm
    rw [heq, hx]
    exact mem_append_right _ mem_cons_self
  · intro decisionId pre x post hx heq other hmem
    rcases snoc_eq_append_cons heq with ⟨old, htr, rfl⟩ | ⟨-, -, rfl⟩
    · rcases mem_snoc.1 hmem with hold | rfl
      · exact h.paidOnce decisionId pre x old hx htr other hold
      -- A confirmed row of the policy is open.
      have hin : SettlementEvent.confirmed decisionId ∈ trace := by
        rw [htr, hx]
        exact mem_append_right _ mem_cons_self
      obtain ⟨r, hr, rfl, hstat⟩ := h.confirmed decisionId hin
      exact (hclaim other _ rfl).2.2 r hr (by simp only [isOpen, hstat]) rfl
    · cases hmem

theorem settlementInv_start (policies : OrdMap String String) (claims : List ClaimRow) :
    SettlementInv policyOf (SettlementState.start policies claims) := by
  refine ⟨?_, ?_, ?_, ⟨?_, ?_, fun _ _ => FollowedBy.nil _ _, fun _ _ => Between.nil _ _ _,
    fun _ => FollowedBy.nil _ _⟩⟩
  all_goals simp [SettlementState.start, UniqueKey, UniqueWhere]

theorem SettlementInv.of_effect (h : SettlementInv policyOf s)
    (heff : SettlementEffect s s' claimed)
    (hkey : UniqueKey (·.decisionId) s'.db.settlements)
    (hasked : ∀ decisionId policyId, claimed = some (decisionId, policyId) →
      policyId = policyOf decisionId) : SettlementInv policyOf s' := by
  have hconf : ∀ r ∈ s.db.settlements, r.status = .confirmed → r ∈ s'.db.settlements :=
    fun _ => heff.confirmed_mem h.key
  have hopen : ∀ e, s'.trace = s.trace ++ [e] → ∀ r ∈ s.db.settlements, r.isOpen = true →
      e = .failed r.decisionId ∨
        ∃ r' ∈ s'.db.settlements, r'.decisionId = r.decisionId ∧ r'.isOpen = true := by
    intro e he r hr hstat
    rcases heff.open_mem hr hstat with hkept | hfailed
    · exact .inr hkept
    · exact .inl (singleton_inj.1 (append_cancel_left (he.symm.trans hfailed)))
  have hquiet : s'.trace = s.trace → TraceInv policyOf s'.db.settlements s'.trace := by
    intro htr
    rw [htr]
    refine h.trace.of_rows ?_ hconf
    intro r hr hstat
    rcases heff.open_mem hr hstat with hkept | hfailed
    · exact hkept
    · rw [htr] at hfailed
      simp at hfailed
  cases heff with
  | none rows trace =>
    refine ⟨hkey, ?_, ?_, hquiet trace⟩
    · rw [rows]
      exact h.index
    · rw [rows]
      exact h.policy
  | claimed row policyId puts pending free policy index trace =>
    have hpolicyId := hasked row.decisionId policyId rfl
    have hrow : row.policyId = policyOf row.decisionId := by
      rcases policy with hnew | ⟨r, hr, hid⟩
      · exact hnew.trans hpolicyId
      · rw [← (free r hr hid).2, ← hid]
        exact h.policy r hr
    have hrowOpen : row.isOpen = true := by
      simp only [isOpen, pending]
    have hoth : ∀ r ∈ s.db.settlements, r.isOpen = true → r.decisionId ≠ row.decisionId := by
      intro r hr hstat hid
      simp only [isOpen, (free r hr hid).1] at hstat
      cases hstat
    refine ⟨hkey, index, ?_, ?_⟩
    · intro r' hr'
      rcases (puts r').1 hr' with rfl | ⟨hmem, _⟩
      · exact hrow
      · exact h.policy r' hmem
    · have hsnoc := h.trace.snoc (.claimed row.decisionId policyId) (hopen _ trace) hconf ?_
        fun _ he => nomatch he
      · rw [trace]
        exact hsnoc
      · intro decisionId policy' he
        cases he
        refine ⟨hpolicyId, ⟨row, (puts row).2 (.inl rfl), rfl, hrowOpen⟩, ?_⟩
        -- The index would hold two open rows of the policy.
        intro r hr hstat hsame
        have hkept := (puts r).2 (.inr ⟨hr, hoth r hr hstat⟩)
        have hpolicies : r.policyId = row.policyId := by
          rw [h.policy r hr, hrow, hsame, hpolicyId]
        have heq := index r hkept row ((puts row).2 (.inl rfl)) hstat hrowOpen hpolicies
        exact hoth r hr hstat (congrArg decisionId heq)
  | moved old row mem isOpen puts decision policy _ trace =>
    refine ⟨hkey, ?_, ?_, ?_⟩
    · -- The new row stands for the old one, which was open.
      have hnew : ∀ r ∈ s.db.settlements, r.decisionId ≠ row.decisionId → r.isOpen = true →
          r.policyId ≠ row.policyId := by
        intro r hr hne hstat hsame
        refine hne ?_
        rw [h.index r hr old mem hstat isOpen (hsame.trans policy), decision]
      intro r hr r' hr' hstat hstat' hsame
      rcases (puts r).1 hr with rfl | ⟨hmem, hne⟩
      · rcases (puts r').1 hr' with rfl | ⟨hmem', hne'⟩
        · rfl
        · exact absurd hsame.symm (hnew r' hmem' hne' hstat')
      · rcases (puts r').1 hr' with rfl | ⟨hmem', _⟩
        · exact absurd hsame (hnew r hmem hne hstat)
        · exact h.index r hmem r' hmem' hstat hstat' hsame
    · intro r' hr'
      rcases (puts r').1 hr' with rfl | ⟨hmem, _⟩
      · rw [policy, decision]
        exact h.policy old mem
      · exact h.policy r' hmem
    · cases hstat : row.status with
      | pending | submitted =>
        rw [noted, hstat, append_nil] at trace
        exact hquiet trace
      | confirmed =>
        rw [noted, hstat] at trace
        rw [trace]
        refine h.trace.snoc _ (hopen _ trace) hconf (fun _ _ he => nomatch he) ?_
        intro decisionId he
        cases he
        exact ⟨row, (puts row).2 (.inl rfl), rfl, hstat⟩
      | failed =>
        rw [noted, hstat] at trace
        rw [trace]
        exact h.trace.snoc _ (hopen _ trace) hconf (fun _ _ he => nomatch he) fun _ he => nomatch he

theorem SettlementInv.step (h : SettlementInv policyOf s) {call : SettlementCall}
    (hcall : OnePolicy policyOf call) : SettlementInv policyOf (settlementStep numeric s call) := by
  obtain ⟨hkey, claimed, heff, hclaimed⟩ := @settlementStep_effect numeric s h.key call
  refine h.of_effect heff hkey ?_
  intro decisionId policyId heq
  rcases hclaimed with rfl | rfl
  · cases heq
  cases call with
  | claim =>
    cases heq
    exact hcall
  | markSubmitted | markConfirmed | markFailed => cases heq

/-- From an empty table, along every run in which a decision id is used for one policy: settlements
are exclusive, and every further call makes allowed moves only. -/
theorem settlements_exclusive (numeric : String → Option ℚ) (policyOf : String → String)
    (policies : OrdMap String String) (claims : List ClaimRow) {s : SettlementState}
    (hrun : RunWhere (fun a call b => settlementStep numeric a call = b)
      (fun _ call => OnePolicy policyOf call) (.start policies claims) s) :
    ExclusiveSettlements s ∧ ∀ call,
      AllowedMoves s.db.settlements (settlementStep numeric s call).db.settlements := by
  have hinv : SettlementInv policyOf s := by
    refine hrun.invariant _ (settlementInv_start policies claims) ?_
    rintro a call _ ha hcall rfl
    exact ha.step hcall
  refine ⟨⟨hinv.key, hinv.index, hinv.trace.reclaimed, ?_⟩, ?_⟩
  · intro decisionId policyId hmem
    rw [hinv.trace.claimedFor decisionId policyId hmem]
    exact hinv.trace.paidOnce decisionId
  · intro call
    obtain ⟨_, _, heffect, _⟩ := @settlementStep_effect numeric s hinv.key call
    exact heffect.allowedMoves hinv.key

/-! ## Two decisions for one policy -/

/-- Two observation windows of one feed and one policy. -/
def windowDecision (windowStart : ℚ) : String :=
  buildDecisionId plainHost id "USDC" "policy" (.finite windowStart)

/-- The second decision is refused while the first is open, and the first after the second was
paid. -/
def racingDecisions : List SettlementCall :=
  [.claim (windowDecision 0) "policy" "10" "\x7b\x7d" 0,
    .claim (windowDecision 60) "policy" "10" "\x7b\x7d" 60,
    .markFailed (windowDecision 0) "rejected",
    .claim (windowDecision 60) "policy" "10" "\x7b\x7d" 61,
    .markSubmitted (windowDecision 60) "hash",
    .markConfirmed (windowDecision 60) "policy" "hash" 62,
    .claim (windowDecision 0) "policy" "10" "\x7b\x7d" 63]

/-- The state after both decisions were tried. -/
def afterRacing : SettlementState :=
  racingDecisions.foldl (settlementStep fun text => if text = "10" then some 10 else none)
    (.start (OrdMap.empty.set "policy" "stablecoin_depeg") [])

theorem settlements_exclusive_racingDecisions :
    ExclusiveSettlements afterRacing ∧
      afterRacing.trace = [.claimed (windowDecision 0) "policy", .failed (windowDecision 0),
        .claimed (windowDecision 60) "policy", .confirmed (windowDecision 60)] := by
  have hcalls : ∀ call ∈ racingDecisions, OnePolicy (fun _ => "policy") call := by
    decide +kernel
  refine ⟨(settlements_exclusive _ _ _ _ (RunWhere.of_foldl hcalls _)).1, ?_⟩
  decide +kernel

end Refract.Claim
