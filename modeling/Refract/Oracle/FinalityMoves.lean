import Refract.Oracle.HorizonFinality

/-!
# What the finality service does to its rows

Each operation of the service is described once, by what it does to the rows of its tables: a reorg
(`Reorged`), the reorgs an observation detects (`observeLedger_spec`), and a call
(`HorizonMove`). Readings are never deleted, and their finality only moves forward (`Advances`).
-/

namespace Refract.Oracle

open Lib List

/-! ## What a reorg does -/

variable {n : JsNumber} {db db' : HorizonDb} {sequence : Int} {oldHash newHash storedHash : String}

/-- The decisions `ids` are no longer active, and nothing else changes but the evidence. -/
structure Supersedes (ids : List Int) (db db' : HorizonDb) : Prop where
  readings : db'.readings = db.readings
  ledgers : db'.ledgers = db.ledgers
  decisionIds : db'.decisions.map (·.id) = db.decisions.map (·.id)
  active : ∀ d ∈ db'.decisions, d.status = .active → d ∈ db.decisions ∧ d.id ∉ ids

theorem supersede_spec (x : HorizonDb × ReorgResult) (decisionId : Int) :
    Supersedes [decisionId] x.1 (supersede sequence oldHash newHash storedHash x decisionId).1 := by
  simp only [supersede]
  split
  · refine ⟨rfl, rfl, map_updateWhere fun _ _ _ => rfl, ?_⟩
    intro d hd hact
    obtain ⟨d₀, hd₀, ⟨-, rfl⟩ | ⟨hnot, rfl⟩⟩ := mem_updateWhere.1 hd
    · cases hact
    refine ⟨hd₀, ?_⟩
    intro hmem
    rw [mem_singleton] at hmem
    simp [OracleDecision.isActive, hmem, hact] at hnot
  · rename_i hnone
    refine ⟨rfl, rfl, rfl, ?_⟩
    intro d hd hact
    refine ⟨hd, ?_⟩
    intro hmem
    rw [mem_singleton] at hmem
    refine hnone (any_eq_true.2 ⟨d, hd, ?_⟩)
    simp [OracleDecision.isActive, hmem, hact]

/-- The loop over the decisions of the affected readings. -/
theorem foldl_supersede_spec (ids : List Int) (x : HorizonDb × ReorgResult) :
    Supersedes ids x.1 (ids.foldl (supersede sequence oldHash newHash storedHash) x).1 := by
  induction ids generalizing x with
  | nil => exact ⟨rfl, rfl, rfl, fun d hd _ => ⟨hd, not_mem_nil⟩⟩
  | cons id _ ih =>
    have hfst : Supersedes [id] x.1 (supersede sequence oldHash newHash storedHash x id).1 :=
      supersede_spec x id
    have hrest := ih (supersede sequence oldHash newHash storedHash x id)
    refine ⟨hrest.readings.trans hfst.readings, hrest.ledgers.trans hfst.ledgers,
      hrest.decisionIds.trans hfst.decisionIds, ?_⟩
    intro d hd hact
    obtain ⟨hd₁, hids⟩ := hrest.active d hd hact
    obtain ⟨hd₀, hid⟩ := hfst.active d hd₁ hact
    refine ⟨hd₀, ?_⟩
    rw [mem_cons, not_or]
    exact ⟨ne_of_not_mem_cons hid, hids⟩

/-- The effect of a reorg to `newHash` on the rows. -/
structure Reorged (sequence : Int) (newHash : String) (db db' : HorizonDb) : Prop where
  readings : db'.readings =
    updateWhere (·.isAffected sequence newHash) HorizonReading.invalidate db.readings
  ledgers : ∃ storedHash, varchar 64 newHash = .ok storedHash ∧ db'.ledgers =
    updateWhere (fun l => decide (l.sequence = sequence)) (fun l => { l with hash := storedHash })
      db.ledgers
  decisionIds : db'.decisions.map (·.id) = db.decisions.map (·.id)
  active : ∀ d ∈ db'.decisions, d.status = .active → d ∈ db.decisions ∧
    ∀ r ∈ db.readings, r.isAffected sequence newHash = true → r.decisionId ≠ some d.id

variable {x y : HorizonDb × ReorgResult}

theorem handleReorg_spec (h : handleReorg sequence oldHash newHash x = .ok y) :
    Reorged sequence newHash x.1 y.1 := by
  obtain ⟨storedHash, hstored, h⟩ := exceptBind_eq_ok h
  cases h
  refine ⟨(foldl_supersede_spec _ _).readings, ⟨storedHash, hstored, ?_⟩,
    (foldl_supersede_spec _ _).decisionIds, ?_⟩
  · exact congrArg _ (foldl_supersede_spec _ _).ledgers
  · intro d hd hact
    obtain ⟨hd₀, hids⟩ := (foldl_supersede_spec _ _).active d hd hact
    refine ⟨hd₀, ?_⟩
    intro r hr haffected hlink
    refine hids (mem_eraseDups.2 (mem_filterMap.2 ⟨r, ?_, hlink⟩))
    exact mem_filter.2 ⟨hr, haffected⟩

/-- Nothing to do, or a reorg from a stored hash that is another one. -/
inductive Detects (sequence : Int) (hash : String) (db : HorizonDb) : HorizonDb → Prop where
  | none (h : db.hashAt sequence = none) : Detects sequence hash db db
  | same (h : db.hashAt sequence = some hash) : Detects sequence hash db db
  | blank (h : db.hashAt sequence = some "") : Detects sequence hash db db
  | reorg {stored : String} {db' : HorizonDb} (h : db.hashAt sequence = some stored)
      (hne : stored ≠ hash) (heffect : Reorged sequence hash db db') : Detects sequence hash db db'

variable {hash : String}

theorem detectReorg_spec (h : detectReorg sequence hash x = .ok y) :
    Detects sequence hash x.1 y.1 := by
  simp only [detectReorg] at h
  split at h
  · rename_i stored hstored
    split at h
    · rename_i hguard
      exact .reorg hstored hguard.2 (handleReorg_spec h)
    rename_i hguard
    cases h
    rw [not_and_or, not_not, not_not] at hguard
    rcases hguard with rfl | rfl
    · exact .blank hstored
    · exact .same hstored
  · rename_i hnone
    cases h
    exact .none hnone

variable {prevHash : Option String} {result : ReorgResult}

/-- What an observation does: the reorgs it detects, one after the other, and the upsert. -/
theorem observeLedger_spec (h : observeLedger db n hash prevHash = .ok (db', result)) :
    ∃ sequence stored prev db₁ db₂, bigint n = .ok sequence ∧ varchar 64 hash = .ok stored ∧
      Detects sequence hash db db₁ ∧
      (db₂ = db₁ ∨ ∃ parent, Detects (sequence - 1) parent db₁ db₂) ∧
      db' = { db₂ with ledgers := upsertLedger ⟨sequence, stored, prev⟩ db₂.ledgers } := by
  obtain ⟨sequence, hseq, h⟩ := exceptBind_eq_ok h
  obtain ⟨x, hx, h⟩ := exceptBind_eq_ok h
  obtain ⟨y, hy, h⟩ := exceptBind_eq_ok h
  obtain ⟨stored, hstored, h⟩ := exceptBind_eq_ok h
  obtain ⟨prev, -, h⟩ := exceptBind_eq_ok h
  cases h
  -- The ledger is compared first, then its parent, if the observation names one.
  refine ⟨sequence, stored, prev, x.1, y.1, hseq, hstored, detectReorg_spec hx, ?_, rfl⟩
  simp only [detectParentReorg] at hy
  split at hy
  · split at hy
    · exact .inr ⟨_, detectReorg_spec hy⟩
    · cases hy
      exact .inl rfl
  · cases hy
    exact .inl rfl

/-- What every reorg preserves and the ledgers do not matter for is preserved by observations. -/
theorem observeLedger_preserves (Inv : HorizonDb → Prop)
    (hreorg : ∀ sequence newHash a b, Reorged sequence newHash a b → Inv a → Inv b)
    (hledgers : ∀ a ledgers, Inv a → Inv { a with ledgers })
    (h : observeLedger db n hash prevHash = .ok (db', result)) (hdb : Inv db) : Inv db' := by
  have hdetects : ∀ sequence hash a b, Detects sequence hash a b → Inv a → Inv b := by
    intro sequence hash a b hab ha
    cases hab with
    | none | same | blank => exact ha
    | reorg _ _ heff => exact hreorg _ _ _ _ heff ha
  obtain ⟨sequence, stored, prev, db₁, db₂, -, -, hfst, hparent, rfl⟩ := observeLedger_spec h
  refine hledgers _ _ ?_
  have h₁ := hdetects _ _ _ _ hfst hdb
  rcases hparent with rfl | ⟨parent, hsecond⟩
  · exact h₁
  · exact hdetects _ _ _ _ hsecond h₁

/-! ## What a call does -/

/-- The effect of a call. A new reading is provisional and unlinked; a decision rests on readings
that the policy allows. -/
inductive HorizonMove (config : FinalityConfig) (s : HorizonState) :
    HorizonCall → HorizonState → Prop where
  | rejected {call : HorizonCall} : HorizonMove config s call s
  | recordReading {input : HorizonReadingInput} {r : HorizonReading}
      (hfresh : ∀ r' ∈ s.db.readings, r'.id ≠ r.id) (hfinality : r.finality = .provisional)
      (hlink : r.decisionId = none) : HorizonMove config s (.recordReading r.id input)
        { s with db := { s.db with readings := s.db.readings ++ [r] } }
  | observeLedger {n : JsNumber} {hash : String} {prevHash : Option String} {db' : HorizonDb}
      {result : ReorgResult} (h : observeLedger s.db n hash prevHash = .ok (db', result)) :
      HorizonMove config s (.observeLedger n hash prevHash) { s with db := db' }
  | promoteFinalized {n : JsNumber} {upTo : Int} {checkpoint : Option IngestCheckpoint} :
      HorizonMove config s (.promoteFinalized n) { s with db := { s.db with
        readings := updateWhere (·.isPromoted s.db.ledgers upTo) HorizonReading.promote
          s.db.readings
        checkpoint } }
  | recordDecision {coverageType : String} {readingIds : List JsNumber} {d : OracleDecision}
      (hfresh : ∀ d' ∈ s.db.decisions, d'.id ≠ d.id)
      (hallowed : ∀ r ∈ s.db.readings, r.isIn readingIds = true →
        r.finality ∈ config.policy.allowed) :
      HorizonMove config s (.recordDecision d.id coverageType readingIds)
        ⟨{ s.db with
            decisions := s.db.decisions ++ [d]
            readings := updateWhere (·.isIn readingIds)
              (fun r => { r with decisionId := some d.id }) s.db.readings },
          s.recorded ++ [⟨d.id, s.db.readings.filter (·.isIn readingIds)⟩]⟩

variable {call : HorizonCall} {config : FinalityConfig} {s s' : HorizonState} {id : Int}

theorem move_recordReading {input : HorizonReadingInput} (hfresh : ∀ r ∈ s.db.readings, r.id ≠ id) :
    HorizonMove config s (.recordReading id input)
      { s with db := commit s.db (recordReading s.db id input) } := by
  cases h : recordReading s.db id input with
  | error => exact .rejected
  | ok =>
    obtain ⟨coverageType, -, h⟩ := exceptBind_eq_ok h
    obtain ⟨source, -, h⟩ := exceptBind_eq_ok h
    obtain ⟨ledgerSequence, -, h⟩ := exceptBind_eq_ok h
    obtain ⟨ledgerHash, -, h⟩ := exceptBind_eq_ok h
    cases h
    exact .recordReading
      (r := ⟨id, coverageType, source, input.value, ledgerSequence, ledgerHash, .provisional, none⟩)
      hfresh rfl rfl

theorem move_promoteFinalized :
    HorizonMove config s (.promoteFinalized n)
      { s with db := commit s.db (promoteFinalized config s.db n) } := by
  cases h : promoteFinalized config s.db n with
  | error => exact .rejected
  | ok =>
    simp only [promoteFinalized] at h
    split at h
    · cases h
      exact .rejected
    · obtain ⟨upTo, -, h⟩ := exceptBind_eq_ok h
      cases h
      exact .promoteFinalized

theorem move_recordDecision {coverageType : String} {readingIds : List JsNumber}
    (hfresh : ∀ d ∈ s.db.decisions, d.id ≠ id) :
    HorizonMove config s (.recordDecision id coverageType readingIds)
      (s.perform config (.recordDecision id coverageType readingIds)) := by
  simp only [HorizonState.perform]
  split
  · rename_i db' id' h
    simp only [recordDecision] at h
    split at h
    · cases h
    split at h
    · cases h
    split at h
    · cases h
    rename_i hguard
    rw [not_or, not_not, not_not] at hguard
    split at h
    · cases h
    rename_i stored hstored
    cases h
    refine .recordDecision (d := ⟨id, stored, .active, none⟩) hfresh ?_
    -- A reading that is not allowed would be among the ineligible ones, and there are none.
    intro r hr hin
    by_contra hallow
    have hineligible : r ∈ (s.db.readings.filter (·.isIn readingIds)).filter
        fun r => decide (r.finality ∉ config.policy.allowed) := by
      simp [hr, hin, hallow]
    rw [hguard.2] at hineligible
    exact not_mem_nil hineligible
  · exact .rejected

theorem horizonStep_move (h : horizonStep config s call = some s') :
    HorizonMove config s call s' := by
  obtain ⟨hallows, ⟨⟩⟩ := Option.ite_none_right_eq_some.1 h
  cases call with
  | recordReading => exact move_recordReading hallows
  | observeLedger n hash prevHash =>
    simp only [HorizonState.perform]
    cases hobs : observeLedger s.db n hash prevHash with
    | error => exact .rejected
    | ok => exact .observeLedger hobs
  | promoteFinalized => exact move_promoteFinalized
  | recordDecision => exact move_recordDecision hallows

/-! ## Readings are kept -/

variable {t : HorizonState}

/-- The id of a reading determines it, in every reachable state. -/
theorem uniqueIds_step (h : UniqueKey (·.id) s.db.readings)
    (hstep : horizonStep config s call = some s') : UniqueKey (·.id) s'.db.readings := by
  cases horizonStep_move hstep with
  | rejected => exact h
  | recordReading hfresh => exact h.insert hfresh
  | observeLedger hobs =>
    refine observeLedger_preserves (fun db => UniqueKey (·.id) db.readings) ?_ ?_ hobs h
    · intro sequence newHash a b heff ha
      rw [heff.readings]
      exact ha.updateWhere fun _ _ _ => rfl
    · exact fun _ _ ha => ha
  | promoteFinalized | recordDecision => exact h.updateWhere fun _ _ _ => rfl

/-- The moves of a reading's finality; it may also stay. -/
inductive MayBecome : ReadingFinality → ReadingFinality → Prop where
  | stay (x : ReadingFinality) : MayBecome x x
  | promoted : MayBecome .provisional .final
  | dropped : MayBecome .provisional .invalidated
  | revoked : MayBecome .final .invalidated

theorem MayBecome.trans {x y z : ReadingFinality} (hxy : MayBecome x y) (hyz : MayBecome y z) :
    MayBecome x z := by
  cases hxy with
  | stay => exact hyz
  | promoted =>
    cases hyz with
    | stay => exact .promoted
    | revoked => exact .dropped
  | dropped =>
    cases hyz with
    | stay => exact .dropped
  | revoked =>
    cases hyz with
    | stay => exact .revoked

theorem MayBecome.invalidated (x : ReadingFinality) : MayBecome x .invalidated := by
  cases x with
  | provisional => exact .dropped
  | final => exact .revoked
  | invalidated => exact .stay _

/-- Every reading is still there, and its finality has moved forward or stayed. -/
def Advances (db db' : HorizonDb) : Prop :=
  ∀ r ∈ db.readings, ∃ r' ∈ db'.readings, r'.id = r.id ∧ MayBecome r.finality r'.finality

theorem Advances.refl (db : HorizonDb) : Advances db db :=
  fun r hr => ⟨r, hr, rfl, .stay _⟩

theorem Advances.trans {a b c : HorizonDb} (hab : Advances a b) (hbc : Advances b c) :
    Advances a c := by
  intro r hr
  obtain ⟨r₁, hr₁, hid₁, hmove₁⟩ := hab r hr
  obtain ⟨r₂, hr₂, hid₂, hmove₂⟩ := hbc r₁ hr₁
  exact ⟨r₂, hr₂, hid₂.trans hid₁, hmove₁.trans hmove₂⟩

/-- An update that keeps ids and moves the finality of the rows it reaches forward. -/
theorem Advances.of_updateWhere {p : HorizonReading → Bool} {f : HorizonReading → HorizonReading}
    (hread : db'.readings = updateWhere p f db.readings) (hid : ∀ r, (f r).id = r.id)
    (hmove : ∀ r, p r = true → MayBecome r.finality (f r).finality) : Advances db db' := by
  intro r hr
  cases hp : p r with
  | true =>
    refine ⟨f r, ?_, hid r, hmove r hp⟩
    rw [hread]
    exact mem_updateWhere.2 ⟨r, hr, .inl ⟨hp, rfl⟩⟩
  | false =>
    refine ⟨r, ?_, rfl, .stay _⟩
    rw [hread]
    exact mem_updateWhere.2 ⟨r, hr, .inr ⟨hp, rfl⟩⟩

theorem Advances.step (hstep : horizonStep config s call = some s') : Advances s.db s'.db := by
  cases horizonStep_move hstep with
  | rejected => exact Advances.refl _
  | recordReading => exact fun r hr => ⟨r, mem_append_left _ hr, rfl, .stay _⟩
  | observeLedger hobs =>
    refine observeLedger_preserves (Advances s.db) ?_ ?_ hobs (Advances.refl _)
    · intro sequence newHash a b heff ha
      refine ha.trans (Advances.of_updateWhere heff.readings (fun _ => rfl) ?_)
      exact fun r _ => .invalidated r.finality
    · exact fun _ _ ha => ha
  | promoteFinalized =>
    refine Advances.of_updateWhere rfl (fun _ => rfl) ?_
    intro r hp
    simp only [HorizonReading.isPromoted, Bool.and_eq_true, decide_eq_true_eq] at hp
    rw [hp.1.1]
    exact .promoted
  | recordDecision =>
    refine Advances.of_updateWhere rfl (fun _ => rfl) ?_
    exact fun r _ => .stay _

end Refract.Oracle
