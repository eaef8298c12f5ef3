import Refract.Oracle.FinalityMoves

/-!
# Safety of finality

Two results about all runs of the finality service. A decision is recorded with a set of readings,
and each of them is linked to it by one column; a reorg supersedes the decisions it finds through
that column. So no active decision rests on an invalidated reading as long as a reading is never
linked to a second decision while the first one is active (`active_decisions_rest_on_valid`).
And a final reading is on the stored hash of its ledger, finality only moves forward, and a decision
of the `final_only` policy was recorded on final readings, as long as no observation replaces an
empty stored hash (`finality_sound`).
-/

namespace Refract.Oracle

open Lib List HorizonReading

/-! ## Decisions rest on valid readings -/

variable {p : HorizonReading → Bool} {f : HorizonReading → HorizonReading} {r : HorizonReading}
  {call : HorizonCall} {config : FinalityConfig} {recorded : List RecordedDecision}
  {db db' : HorizonDb} {s s' : HorizonState}

/-- Before the call: no reading of a new decision is linked to a decision that is active. -/
def Unshared (s : HorizonState) : HorizonCall → Prop
  | .recordDecision _ _ readingIds => ∀ r ∈ s.db.readings, r.isIn readingIds = true →
      ∀ d ∈ s.db.decisions, d.status = .active → r.decisionId ≠ some d.id
  | .recordReading .. | .observeLedger .. | .promoteFinalized .. => True

instance (s : HorizonState) (call : HorizonCall) : Decidable (Unshared s call) := by
  rcases call with _ | _ | _ | _ <;> dsimp only [Unshared] <;> infer_instance

/-- No active decision was recorded with a reading that is invalidated now. -/
def ActiveDecisionsValid (s : HorizonState) : Prop :=
  ∀ c ∈ s.recorded, ∀ d ∈ s.db.decisions, d.id = c.id → d.status = .active →
    ∀ r ∈ c.readings, ∀ r' ∈ s.db.readings, r'.id = r.id → r'.finality ≠ .invalidated

instance (s : HorizonState) : Decidable (ActiveDecisionsValid s) :=
  inferInstanceAs (Decidable (∀ c ∈ s.recorded, ∀ d ∈ s.db.decisions, _ → _ →
    ∀ r ∈ c.readings, ∀ r' ∈ s.db.readings, _ → _))

/-- The readings of an active decision are valid and still linked to it. -/
structure LinkInv (recorded : List RecordedDecision) (db : HorizonDb) : Prop where
  decisions : ∀ c ∈ recorded, c.id ∈ db.decisions.map (·.id)
  readings : ∀ c ∈ recorded, ∀ r ∈ c.readings, r.id ∈ db.readings.map (·.id)
  linked : ∀ c ∈ recorded, ∀ d ∈ db.decisions, d.id = c.id → d.status = .active →
    ∀ r ∈ c.readings, ∀ r' ∈ db.readings, r'.id = r.id →
      r'.finality ≠ .invalidated ∧ r'.decisionId = some d.id

variable {id : Int}

theorem mem_ids_updateWhere {rows : List HorizonReading} (hf : ∀ r, (f r).id = r.id)
    (h : id ∈ rows.map (·.id)) : id ∈ (updateWhere p f rows).map (·.id) := by
  rw [map_updateWhere fun r _ _ => hf r]
  exact h

theorem LinkInv.reorg {sequence : Int} {newHash : String} (h : LinkInv recorded db)
    (heff : Reorged sequence newHash db db') : LinkInv recorded db' where
  decisions := by
    rw [heff.decisionIds]
    exact h.decisions
  readings := by
    intro c hc r hr
    rw [heff.readings]
    exact mem_ids_updateWhere (fun _ => rfl) (h.readings c hc r hr)
  linked := by
    intro c hc d hd hid hact r hr
    obtain ⟨hd₀, hkept⟩ := heff.active d hd hact
    rw [heff.readings]
    refine forall_mem_updateWhere (h.linked c hc d hd₀ hid hact r hr) ?_
    -- An affected reading of the decision is linked to it, so the decision was superseded.
    exact fun r₀ hr₀ haffected hlinked hrid => absurd (hlinked hrid).2 (hkept r₀ hr₀ haffected)

theorem LinkInv.insert (h : LinkInv recorded db) (hfresh : ∀ r' ∈ db.readings, r'.id ≠ r.id) :
    LinkInv recorded { db with readings := db.readings ++ [r] } where
  decisions := h.decisions
  readings := by
    intro c hc r₀ hr₀
    rw [map_append]
    exact mem_append_left _ (h.readings c hc r₀ hr₀)
  linked := by
    intro c hc d hd hid hact r₀ hr₀ r' hr' hrid
    rcases mem_snoc.1 hr' with hold | rfl
    · exact h.linked c hc d hd hid hact r₀ hr₀ r' hold hrid
    · obtain ⟨r₁, hr₁, hid₁⟩ := mem_map.1 (h.readings c hc r₀ hr₀)
      exact absurd (hid₁.trans hrid.symm) (hfresh r₁ hr₁)

theorem LinkInv.promote {upTo : Int} {checkpoint : Option IngestCheckpoint}
    (h : LinkInv recorded db) : LinkInv recorded { db with
      readings := updateWhere (·.isPromoted db.ledgers upTo) promote db.readings
      checkpoint } where
  decisions := h.decisions
  readings := fun c hc r hr => mem_ids_updateWhere (fun _ => rfl) (h.readings c hc r hr)
  linked := by
    intro c hc d hd hid hact r hr
    refine forall_mem_updateWhere (h.linked c hc d hd hid hact r hr) fun r₀ _ _ hlinked hrid => ?_
    exact ⟨by simp [HorizonReading.promote], (hlinked hrid).2⟩

theorem FinalityPolicy.invalidated_notMem_allowed (policy : FinalityPolicy) :
    .invalidated ∉ policy.allowed := by
  cases policy <;> decide

/-- A new decision takes over its readings; none of them belongs to another active one. -/
theorem LinkInv.decide {coverageType : String} {readingIds : List JsNumber}
    {d : OracleDecision} (huniq : UniqueKey (·.id) s.db.readings) (h : LinkInv s.recorded s.db)
    (hunshared : Unshared s (.recordDecision id coverageType readingIds))
    (hfresh : ∀ d' ∈ s.db.decisions, d'.id ≠ d.id)
    (hallow : ∀ r ∈ s.db.readings, r.isIn readingIds = true →
      r.finality ∈ config.policy.allowed) :
    LinkInv (s.recorded ++ [⟨d.id, s.db.readings.filter (·.isIn readingIds)⟩])
      { s.db with
        decisions := s.db.decisions ++ [d]
        readings := updateWhere (·.isIn readingIds)
          (fun r => { r with decisionId := some d.id }) s.db.readings } where
  decisions := by
    intro c hc
    rw [map_append]
    rcases mem_snoc.1 hc with hold | rfl
    · exact mem_append_left _ (h.decisions c hold)
    · exact mem_append_right _ (mem_singleton.2 rfl)
  readings := by
    intro c hc r hr
    refine mem_ids_updateWhere (fun _ => rfl) ?_
    rcases mem_snoc.1 hc with hold | rfl
    · exact h.readings c hold r hr
    · exact mem_map_of_mem (mem_filter.1 hr).1
  linked := by
    intro c hc d' hd' hid hact r hr r' hr' hrid
    obtain ⟨r₀, hr₀, hr₀'⟩ := mem_updateWhere.1 hr'
    rcases mem_append.1 hc with hold | hnew
    · -- An earlier decision: its id is not the new one, and its readings are not taken.
      have hd₀ : d' ∈ s.db.decisions := by
        rcases mem_snoc.1 hd' with hd₀ | rfl
        · exact hd₀
        · obtain ⟨d₂, hd₂, hid₂⟩ := mem_map.1 (h.decisions c hold)
          exact absurd (hid₂.trans hid.symm) (hfresh d₂ hd₂)
      have hkeep := h.linked c hold d' hd₀ hid hact r hr r₀ hr₀
      rcases hr₀' with ⟨hin, rfl⟩ | ⟨-, rfl⟩
      · exact absurd (hkeep hrid).2 (hunshared r₀ hr₀ hin d' hd₀ hact)
      · exact hkeep hrid
    · -- The new decision: its readings are the selected ones, which the policy allows.
      rw [mem_singleton.1 hnew] at hr hid
      obtain ⟨hrdb, hin⟩ := mem_filter.1 hr
      have hr₀r : r₀ = r := by
        refine huniq.eq hr₀ hrdb ?_
        rcases hr₀' with ⟨-, rfl⟩ | ⟨-, rfl⟩ <;> exact hrid
      rw [hr₀r] at hr₀'
      rcases hr₀' with ⟨-, rfl⟩ | ⟨hnot, -⟩
      · refine ⟨?_, congrArg some hid.symm⟩
        intro hinvalid
        have hbad := hallow r hrdb hin
        rw [show r.finality = .invalidated from hinvalid] at hbad
        exact config.policy.invalidated_notMem_allowed hbad
      · rw [hin] at hnot
        cases hnot

theorem LinkInv.step (huniq : UniqueKey (·.id) s.db.readings) (h : LinkInv s.recorded s.db)
    (hunshared : Unshared s call) (hstep : horizonStep config s call = some s') :
    LinkInv s'.recorded s'.db := by
  cases horizonStep_move hstep with
  | rejected => exact h
  | recordReading hfresh => exact h.insert hfresh
  | observeLedger hobs =>
    refine observeLedger_preserves (LinkInv s.recorded) ?_ ?_ hobs h
    · exact fun _ _ _ _ heff hdb => hdb.reorg heff
    · exact fun a ledgers ha => { ha with }
  | promoteFinalized => exact h.promote
  | recordDecision hfresh hallow => exact h.decide huniq hunshared hfresh hallow

/-- Every reorg supersedes every active decision that was recorded with an invalidated reading, in
every run that links a reading to a new decision only when it is not linked to an active one. -/
theorem active_decisions_rest_on_valid (config : FinalityConfig) (s : HorizonState)
    (hrun : RunWhere (HorizonSteps config) Unshared .start s) : ActiveDecisionsValid s := by
  have hinv : UniqueKey (·.id) s.db.readings ∧ LinkInv s.recorded s.db := by
    refine hrun.invariant (fun s => UniqueKey (·.id) s.db.readings ∧ LinkInv s.recorded s.db) ?_ ?_
    · exact ⟨nodup_nil, fun _ hc => absurd hc not_mem_nil,
        fun _ hc => absurd hc not_mem_nil, fun _ hc => absurd hc not_mem_nil⟩
    · rintro a call b ⟨hunique, ha⟩ hunshared hstep
      exact ⟨uniqueIds_step hunique hstep, ha.step hunique hunshared hstep⟩
  intro c hc d hd hid hactive r hr r' hr' hrid
  exact (hinv.2.linked c hc d hd hid hactive r hr r' hr' hrid).1

/-- A reading of ledger 10. -/
def floodReading : HorizonReadingInput := ⟨"Flood", .finite 3, .finite 10, "a1", none⟩

/-- Ledger 10 is observed, and its reading becomes final. -/
def finalReading : List HorizonCall :=
  [.observeLedger (.finite 10) "a1" none, .recordReading 1 floodReading,
   .observeLedger (.finite 15) "f6" none, .promoteFinalized (.finite 15)]

/-- The reading is decided on, and its ledger is reorged. -/
theorem active_decisions_rest_on_valid_reorg :
    ∃ s, RunWhere (HorizonSteps ⟨5, .finalOnly⟩) Unshared .start s ∧
      s.recorded.map (·.id) = [1] ∧ s.db.decisions.map (·.status) = [.superseded] ∧
      s.db.readings.map (·.finality) = [.invalidated] ∧ ActiveDecisionsValid s :=
  ⟨_, .performed
    (finalReading ++ [HorizonCall.recordDecision 1 "Flood" [.finite 1],
      .observeLedger (.finite 10) "b2" none]) (by decide +kernel),
    by decide +kernel, by decide +kernel, by decide +kernel,
    active_decisions_rest_on_valid _ _ (.performed _ _)⟩

/-- Two decisions rest on one reading; the reorg reaches only the second. -/
theorem active_decision_rests_on_invalidated :
    ∃ s, RunWhere (HorizonSteps ⟨5, .finalOnly⟩) (fun _ _ => True) .start s ∧
      ¬ActiveDecisionsValid s :=
  ⟨_, .performed
    (finalReading ++ [HorizonCall.recordDecision 1 "Flood" [.finite 1],
      .recordDecision 2 "Flood" [.finite 1], .observeLedger (.finite 10) "b2" none])
    (by decide +kernel), by decide +kernel⟩

/-! ## Final readings are on the stored hash -/

variable {sequence : Int} {hash newHash : String}

theorem hashAt_eq_some (huniq : UniqueKey (·.sequence) db.ledgers) :
    db.hashAt sequence = some hash ↔ ∃ l ∈ db.ledgers, l.sequence = sequence ∧ l.hash = hash := by
  rw [HorizonDb.hashAt, Option.map_eq_some_iff]
  constructor
  · rintro ⟨l, hfind, rfl⟩
    obtain ⟨hl, hseq⟩ := findByKey_some hfind
    exact ⟨l, hl, hseq, rfl⟩
  · rintro ⟨l, hl, rfl, rfl⟩
    exact ⟨l, huniq.findByKey_eq hl, rfl⟩

/-- Every final reading is on the hash stored for its ledger. -/
structure FinalInv (db : HorizonDb) : Prop where
  sequences : UniqueKey (·.sequence) db.ledgers
  stored : ∀ l ∈ db.ledgers, varchar 64 l.hash = .ok l.hash
  agree : ∀ r ∈ db.readings, r.finality = .final →
    ∃ l ∈ db.ledgers, l.sequence = r.ledgerSequence ∧ l.hash = r.ledgerHash

theorem FinalInv.hashAt (h : FinalInv db) (hr : r ∈ db.readings) (hfin : r.finality = .final) :
    db.hashAt r.ledgerSequence = some r.ledgerHash :=
  (hashAt_eq_some h.sequences).2 (h.agree r hr hfin)

variable {stored : String}

section

variable (h : FinalInv db) (hstored : db.hashAt sequence = some stored)
  (hne : stored ≠ newHash) (heff : Reorged sequence newHash db db')

include h hstored hne heff

/-- A final reading after a reorg was final before, and is not on the ledger. -/
theorem FinalInv.final_of_reorged (hr : r ∈ db'.readings) (hfin : r.finality = .final) :
    r ∈ db.readings ∧ r.ledgerSequence ≠ sequence := by
  rw [heff.readings] at hr
  obtain ⟨r₀, hr₀, ⟨-, rfl⟩ | ⟨hnot, rfl⟩⟩ := mem_updateWhere.1 hr
  · cases hfin
  refine ⟨hr₀, ?_⟩
  intro hseq
  -- It was on the stored hash, which is not the new one, so the update reached it.
  have hhash := h.hashAt hr₀ hfin
  rw [hseq, hstored] at hhash
  rw [Option.some.inj hhash] at hne
  simp [isAffected, hseq, hne, hfin] at hnot

theorem FinalInv.reorg : FinalInv db' := by
  obtain ⟨storedHash, hvarchar, hledgers⟩ := heff.ledgers
  refine ⟨?_, ?_, ?_⟩
  · rw [hledgers]
    exact h.sequences.updateWhere fun _ _ _ => rfl
  · rw [hledgers]
    exact forall_mem_updateWhere h.stored fun _ _ _ _ => varchar_idem hvarchar
  · intro r hr hfin
    obtain ⟨hr₀, hseq⟩ := h.final_of_reorged hstored hne heff hr hfin
    obtain ⟨l, hl, hl₁, hl₂⟩ := h.agree r hr₀ hfin
    refine ⟨l, ?_, hl₁, hl₂⟩
    rw [hledgers]
    refine mem_updateWhere.2 ⟨l, hl, .inr ⟨?_, rfl⟩⟩
    exact decide_eq_false fun heq => hseq (hl₁.symm.trans heq)

end

theorem FinalInv.detects (h : FinalInv db) (hdetects : Detects sequence hash db db') :
    FinalInv db' := by
  cases hdetects with
  | none | same | blank => exact h
  | reorg hstored hne heff => exact h.reorg hstored hne heff

/-- The final readings of a ledger are on the hash. -/
def FinalOn (sequence : Int) (hash : String) (db : HorizonDb) : Prop :=
  ∀ r ∈ db.readings, r.finality = .final → r.ledgerSequence = sequence → r.ledgerHash = hash

/-- After reorg detection the final readings of the ledger are on the observed hash, unless an
empty stored hash was passed over. -/
theorem FinalInv.finalOn_of_detects (h : FinalInv db) (hdetects : Detects sequence hash db db')
    (hblank : db.hashAt sequence = some "" → hash = "") : FinalOn sequence hash db' := by
  intro r hr hfin hseq
  cases hdetects with
  | none hnone =>
    have hhash := h.hashAt hr hfin
    rw [hseq, hnone] at hhash
    cases hhash
  | same hsame =>
    have hhash := h.hashAt hr hfin
    rw [hseq, hsame] at hhash
    exact (Option.some.inj hhash).symm
  | blank hstored =>
    have hhash := h.hashAt hr hfin
    rw [hseq, hstored] at hhash
    rw [hblank hstored]
    exact (Option.some.inj hhash).symm
  | reorg hstored hne heff =>
    exact absurd hseq (h.final_of_reorged hstored hne heff hr hfin).2

/-- Detection at another ledger makes no reading final. -/
theorem FinalOn.detects {parent : Int} {parentHash : String} (h : FinalOn sequence hash db)
    (hinv : FinalInv db) (hdetects : Detects parent parentHash db db') :
    FinalOn sequence hash db' := by
  cases hdetects with
  | none | same | blank => exact h
  | reorg hstored hne heff =>
    intro r hr hfin
    exact h r (hinv.final_of_reorged hstored hne heff hr hfin).1 hfin

variable {row : HorizonLedger} {ledgers : List HorizonLedger}

theorem mem_upsertLedger {l : HorizonLedger} :
    l ∈ upsertLedger row ledgers ↔ l = row ∨ (l ∈ ledgers ∧ l.sequence ≠ row.sequence) := by
  rw [upsertLedger]
  split
  · rename_i hany
    obtain ⟨l₀, hl₀, hseq⟩ := any_eq_true.1 hany
    rw [mem_updateWhere]
    constructor
    · rintro ⟨l', hl', ⟨-, rfl⟩ | ⟨hne, rfl⟩⟩
      · exact .inl rfl
      · exact .inr ⟨hl', of_decide_eq_false hne⟩
    · rintro (rfl | ⟨hl, hne⟩)
      · exact ⟨l₀, hl₀, .inl ⟨hseq, rfl⟩⟩
      · exact ⟨l, hl, .inr ⟨decide_eq_false hne, rfl⟩⟩
  · rename_i hnone
    rw [mem_append, mem_singleton, or_comm]
    refine or_congr_right ⟨fun hl => ⟨hl, fun heq => ?_⟩, And.left⟩
    exact hnone (any_eq_true.2 ⟨l, hl, decide_eq_true heq⟩)

theorem uniqueKey_upsertLedger (h : UniqueKey (·.sequence) ledgers) :
    UniqueKey (·.sequence) (upsertLedger row ledgers) := by
  rw [upsertLedger]
  split
  · exact h.updateWhere fun l _ hl => (of_decide_eq_true hl).symm
  rename_i hnone
  refine h.insert fun l hl heq => ?_
  exact hnone (any_eq_true.2 ⟨l, hl, decide_eq_true heq⟩)

/-- The upsert stores the observed hash, which the final readings of the ledger are on. -/
theorem FinalInv.upsert {prev : Option String} (h : FinalInv db)
    (hvarchar : varchar 64 hash = .ok stored) (hon : FinalOn sequence hash db) :
    FinalInv { db with ledgers := upsertLedger ⟨sequence, stored, prev⟩ db.ledgers } := by
  refine ⟨uniqueKey_upsertLedger h.sequences, ?_, ?_⟩
  · intro l hl
    rcases mem_upsertLedger.1 hl with rfl | ⟨hl₀, -⟩
    · exact varchar_idem hvarchar
    · exact h.stored l hl₀
  · intro r hr hfin
    obtain ⟨l, hl, hseq, hhash⟩ := h.agree r hr hfin
    by_cases heq : r.ledgerSequence = sequence
    · refine ⟨_, mem_upsertLedger.2 (.inl rfl), heq.symm, ?_⟩
      have hsame : r.ledgerHash = hash := hon r hr hfin heq
      have hfits := h.stored l hl
      rw [hhash, hsame, hvarchar] at hfits
      exact (Except.ok.inj hfits).trans hsame.symm
    · exact ⟨l, mem_upsertLedger.2 (.inr ⟨hl, by rwa [hseq]⟩), hseq, hhash⟩

/-- Before the call: an observation brings no other hash for a ledger whose stored hash is empty. -/
def NoBlankReplaced (s : HorizonState) : HorizonCall → Prop
  | .observeLedger n hash _ =>
    ∀ l ∈ s.db.ledgers, n = .finite l.sequence → l.hash = "" → hash = ""
  | .recordReading .. | .promoteFinalized .. | .recordDecision .. => True

instance (s : HorizonState) (call : HorizonCall) : Decidable (NoBlankReplaced s call) := by
  rcases call with _ | _ | _ | _ <;> dsimp only [NoBlankReplaced] <;> infer_instance

theorem FinalInv.observe {n : JsNumber} {prevHash : Option String} {result : ReorgResult}
    (h : FinalInv s.db) (hblank : NoBlankReplaced s (.observeLedger n hash prevHash))
    (hobs : observeLedger s.db n hash prevHash = .ok (db', result)) : FinalInv db' := by
  obtain ⟨sequence, stored, prev, db₁, db₂, hseq, hvarchar, hfst, hparent, rfl⟩ :=
    observeLedger_spec hobs
  have h₁ : FinalInv db₁ := h.detects hfst
  have hon₁ : FinalOn sequence hash db₁ := by
    refine h.finalOn_of_detects hfst ?_
    intro hstored
    obtain ⟨l, hl, rfl, hemp⟩ := (hashAt_eq_some h.sequences).1 hstored
    exact hblank l hl (bigint_eq_ok hseq) hemp
  rcases hparent with rfl | ⟨parent, hsecond⟩
  · exact h₁.upsert hvarchar hon₁
  · exact (h₁.detects hsecond).upsert hvarchar (hon₁.detects h₁ hsecond)

theorem FinalInv.step (h : FinalInv s.db) (hblank : NoBlankReplaced s call)
    (hstep : horizonStep config s call = some s') : FinalInv s'.db := by
  cases horizonStep_move hstep with
  | rejected => exact h
  | recordReading _ hfinality =>
    refine ⟨h.sequences, h.stored, ?_⟩
    refine forall_mem_snoc.2 ⟨h.agree, fun hfin => ?_⟩
    rw [hfinality] at hfin
    cases hfin
  | observeLedger hobs => exact h.observe hblank hobs
  | promoteFinalized =>
    -- Only readings on the stored hash are promoted.
    refine ⟨h.sequences, h.stored, forall_mem_updateWhere h.agree fun r _ hprom _ _ => ?_⟩
    simp only [isPromoted, Bool.and_eq_true, any_eq_true, decide_eq_true_eq] at hprom
    exact hprom.2
  | recordDecision =>
    exact ⟨h.sequences, h.stored, forall_mem_updateWhere h.agree fun _ _ _ hagree => hagree⟩

/-! ### Linked readings -/

/-- A linked reading was selected when its decision was recorded, and the policy allowed it. -/
structure RecordInv (config : FinalityConfig) (s : HorizonState) : Prop where
  allowed : ∀ c ∈ s.recorded, ∀ r ∈ c.readings, r.finality ∈ config.policy.allowed
  linked : ∀ r ∈ s.db.readings, ∀ d, r.decisionId = some d →
    ∃ c ∈ s.recorded, c.id = d ∧ ∃ r₀ ∈ c.readings, r₀.id = r.id

/-- An update that keeps ids and links. -/
theorem RecordInv.of_updateWhere (h : RecordInv config s) (hrec : s'.recorded = s.recorded)
    (hread : s'.db.readings = updateWhere p f s.db.readings) (hid : ∀ r, (f r).id = r.id)
    (hlink : ∀ r, (f r).decisionId = r.decisionId) : RecordInv config s' := by
  refine ⟨by rw [hrec]; exact h.allowed, ?_⟩
  rw [hread, hrec]
  refine forall_mem_updateWhere h.linked fun r _ _ hlinked => ?_
  rw [hid, hlink]
  exact hlinked

theorem RecordInv.step (h : RecordInv config s) (hstep : horizonStep config s call = some s') :
    RecordInv config s' := by
  cases horizonStep_move hstep with
  | rejected => exact h
  | recordReading _ _ hlink =>
    refine ⟨h.allowed, ?_⟩
    refine forall_mem_snoc.2 ⟨h.linked, fun d hd => ?_⟩
    rw [hlink] at hd
    cases hd
  | observeLedger hobs =>
    refine observeLedger_preserves (fun db => RecordInv config { s with db }) ?_ ?_ hobs h
    · intro sequence newHash a b heff ha
      exact ha.of_updateWhere rfl heff.readings (fun _ => rfl) fun _ => rfl
    · exact fun _ _ ha => ⟨ha.allowed, ha.linked⟩
  | promoteFinalized => exact h.of_updateWhere rfl rfl (fun _ => rfl) fun _ => rfl
  | recordDecision _ hallow =>
    refine ⟨?_, ?_⟩
    · refine forall_mem_snoc.2 ⟨h.allowed, fun r hr => ?_⟩
      obtain ⟨hrdb, hin⟩ := mem_filter.1 hr
      exact hallow r hrdb hin
    · intro r hr d hd
      obtain ⟨r₀, hr₀, ⟨hin, rfl⟩ | ⟨-, rfl⟩⟩ := mem_updateWhere.1 hr
      · -- Linked by this decision, which selected it.
        cases hd
        refine ⟨_, mem_append_right _ (mem_singleton.2 rfl), rfl, r₀, ?_, rfl⟩
        exact mem_filter.2 ⟨hr₀, hin⟩
      · obtain ⟨c, hc, hid, hsel⟩ := h.linked r hr₀ d hd
        exact ⟨c, mem_append_left _ hc, hid, hsel⟩

/-- In a state: final readings are on the stored hash of their ledger, and under `final_only` the
readings a decision was recorded with were final, those linked to it among them. -/
structure FinalitySound (config : FinalityConfig) (s : HorizonState) : Prop where
  onStoredHash : ∀ r ∈ s.db.readings, r.finality = .final →
    s.db.hashAt r.ledgerSequence = some r.ledgerHash
  recordedFinal : config.policy = .finalOnly →
    ∀ c ∈ s.recorded, ∀ r ∈ c.readings, r.finality = .final
  linkedRecorded : ∀ r ∈ s.db.readings, ∀ d, r.decisionId = some d →
    ∃ c ∈ s.recorded, c.id = d ∧ ∃ r₀ ∈ c.readings, r₀.id = r.id

/-- Every state of a run in which no observation replaces an empty stored hash is sound, and from
there to any later state each reading is kept, the only one with its id, and its finality only moves
from provisional to final and from either to invalidated. -/
theorem finality_sound (config : FinalityConfig) (s : HorizonState)
    (hrun : RunWhere (HorizonSteps config) NoBlankReplaced .start s) :
    FinalitySound config s ∧
      ∀ t, RunWhere (HorizonSteps config) NoBlankReplaced s t → ∀ r ∈ s.db.readings,
        ∃ r' ∈ t.db.readings, r'.id = r.id ∧ MayBecome r.finality r'.finality ∧
          ∀ r'' ∈ t.db.readings, r''.id = r.id → r'' = r' := by
  have hfinal : FinalInv s.db := by
    refine hrun.invariant (fun s => FinalInv s.db) ?_ ?_
    · exact ⟨nodup_nil, fun _ hl => absurd hl not_mem_nil,
        fun _ hr => absurd hr not_mem_nil⟩
    · exact fun _ _ _ ha => ha.step
  have hrecord : RecordInv config s := by
    refine hrun.invariant (RecordInv config) ?_ ?_
    · exact ⟨fun _ hc => absurd hc not_mem_nil, fun _ hr => absurd hr not_mem_nil⟩
    · exact fun _ _ _ ha _ hstep => ha.step hstep
  refine ⟨⟨fun _ => hfinal.hashAt, ?_, hrecord.linked⟩, ?_⟩
  · intro hpolicy c hc r hr
    have hallowed := hrecord.allowed c hc r hr
    rw [hpolicy] at hallowed
    exact mem_singleton.1 hallowed
  · intro t hlater r hr
    -- That an id is the only one is a fact about the whole run, the advance one about its end.
    have hwhole : RunWhere (HorizonSteps config) NoBlankReplaced .start t := hrun.trans hlater
    have hunique : UniqueKey (·.id) t.db.readings := by
      refine hwhole.invariant (fun s => UniqueKey (·.id) s.db.readings) ?_ ?_
      · exact nodup_nil
      · exact fun _ _ _ ha _ hstep => uniqueIds_step ha hstep
    have hadvances : Advances s.db t.db := by
      refine hlater.invariant (fun b => Advances s.db b.db) (Advances.refl _) ?_
      exact fun _ _ _ ha _ hstep => ha.trans (Advances.step hstep)
    obtain ⟨r', hr', hid, hmove⟩ := hadvances r hr
    exact ⟨r', hr', hid, hmove, fun r'' hr'' hid'' => hunique.eq hr'' hr' (hid''.trans hid.symm)⟩

/-- The reading becomes final, is decided on, and is invalidated by the parent hash of ledger 11. -/
theorem finality_sound_reorg :
    ∃ s t, RunWhere (HorizonSteps ⟨5, .finalOnly⟩) NoBlankReplaced .start s ∧
      RunWhere (HorizonSteps ⟨5, .finalOnly⟩) NoBlankReplaced s t ∧
      s.db.readings.map (·.finality) = [.final] ∧ s.recorded.map (·.id) = [1] ∧
      t.db.readings.map (·.finality) = [.invalidated] ∧
      FinalitySound ⟨5, .finalOnly⟩ s ∧ ∀ r ∈ s.db.readings, ∃ r' ∈ t.db.readings,
        r'.id = r.id ∧ MayBecome r.finality r'.finality ∧
          ∀ r'' ∈ t.db.readings, r''.id = r.id → r'' = r' := by
  have hrun : RunWhere (HorizonSteps ⟨5, .finalOnly⟩) NoBlankReplaced .start _ :=
    .performed (finalReading ++ [HorizonCall.recordDecision 1 "Flood" [.finite 1]])
      (by decide +kernel)
  have hsound := finality_sound _ _ hrun
  exact ⟨_, _, hrun,
    .performed [.observeLedger (.finite 11) "c3" (some "b2")] (by decide +kernel),
    by decide +kernel, by decide +kernel, by decide +kernel, hsound.1,
    hsound.2 _ (.performed _ _)⟩

/-- A ledger stored with an empty hash is observed with another one: its final reading stays. -/
theorem final_reading_off_hash :
    ∃ s, RunWhere (HorizonSteps ⟨5, .finalOnly⟩) (fun _ _ => True) .start s ∧
      ¬FinalitySound ⟨5, .finalOnly⟩ s := by
  refine RunWhere.exists_reached
    [.observeLedger (.finite 10) "" none,
     .recordReading 1 ⟨"Flood", .finite 3, .finite 10, "", none⟩, .promoteFinalized (.finite 15),
     .observeLedger (.finite 10) "a1" none]
    (fun s => ∃ r ∈ s.db.readings, r.finality = .final ∧
      s.db.hashAt r.ledgerSequence ≠ some r.ledgerHash) (by decide +kernel) ?_
  rintro s - ⟨r, hr, hfinal, hhash⟩ hsound
  exact hhash (hsound.onStoredHash r hr hfinal)

end Refract.Oracle
