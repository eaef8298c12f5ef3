import Mathlib.Algebra.Order.BigOperators.Group.List
import Refract.Services.OperatorRewards

/-!
# Payouts never exceed accruals, while every payout is covered

`schedulePayouts` pays the whole balance of accruals and adjustments each time, without subtracting
what it scheduled before. So an operator is overpaid as soon as it accrues again after a first
payout (`overpaid_after_second_accrual`). The totals stay in order along the runs in which every
created payout is covered (`Covered`): the invariant `RewardInv` bounds an operator's payout
records by its accruals, and says that what was ever marked paid is the paid part of the records.
-/

namespace Refract.Services

open Lib List OrdMap RewardState
open RewardLedgerStore

/-! ## Effect of the store operations on the totals -/

@[simp] theorem appendEntry_payouts (store : RewardLedgerStore) (entry : LedgerEntry) :
    (store.appendEntry entry).payouts = store.payouts := by
  unfold appendEntry
  split <;> rfl

theorem entryTotal_appendEntry (type : LedgerEntryType) (store : RewardLedgerStore)
    (entry : LedgerEntry) (operatorId : String) :
    entryTotal type (store.appendEntry entry) operatorId = entryTotal type store operatorId +
      if store.hasEntry entry.idempotencyKey then 0 else entryShare type operatorId entry := by
  unfold appendEntry
  by_cases hkey : store.hasEntry entry.idempotencyKey
  · simp [hkey]
  have hnone : store.entries.get? entry.idempotencyKey = none := by
    simpa [hasEntry, OrdMap.contains] using hkey
  simp [hkey, entryTotal, sum_values_set, hnone]

/-- An entry of another kind leaves a total as it is. -/
theorem entryTotal_appendEntry_of_ne {type : LedgerEntryType} {entry : LedgerEntry}
    (h : entry.type ≠ type) (store : RewardLedgerStore) (operatorId : String) :
    entryTotal type (store.appendEntry entry) operatorId = entryTotal type store operatorId := by
  have hshare : entryShare type operatorId entry = 0 := by simp [entryShare, h]
  rw [entryTotal_appendEntry, hshare, ite_self, add_zero]

theorem payoutTotal_upsertPayout (store : RewardLedgerStore) (payout : PayoutRecord)
    (operatorId : String) :
    payoutTotal (store.upsertPayout payout) operatorId = payoutTotal store operatorId +
      payoutShare operatorId payout -
        ((store.payouts.get? payout.idempotencyKey).map (payoutShare operatorId)).getD 0 :=
  sum_values_set (payoutShare operatorId) store.payouts payout.idempotencyKey payout

/-- Accruing adds accruals and leaves the payout records alone. -/
theorem accrueRewards_frame (sha : String → String) (store : RewardLedgerStore)
    (readings : List ConsensusReading) (now : JsNumber) :
    (accrueRewards sha store readings now).1.payouts = store.payouts ∧
      ∀ operatorId, entryTotal .accrual store operatorId ≤
        entryTotal .accrual (accrueRewards sha store readings now).1 operatorId := by
  refine List.foldlRecOn readings (accrueReading sha now)
    (motive := fun acc => acc.1.payouts = store.payouts ∧ ∀ operatorId,
      entryTotal .accrual store operatorId ≤ entryTotal .accrual acc.1 operatorId)
    ?_ ?_
  · exact ⟨rfl, fun _ => le_refl _⟩
  intro acc ih reading _
  unfold accrueReading
  dsimp only
  split
  · exact ih
  rename_i hpos
  split
  · exact ih
  refine ⟨by rw [appendEntry_payouts]; exact ih.1, fun operatorId => ?_⟩
  have hstep := ih.2 operatorId
  have hamt : 0 ≤ computeAccrualAmount reading := (not_le.1 hpos).le
  rw [entryTotal_appendEntry]
  refine hstep.trans (le_add_of_nonneg_right ?_)
  unfold entryShare
  split
  · exact le_refl _
  split
  · exact hamt
  · exact le_refl _

/-- An invalidation touches neither accruals nor payout records. -/
theorem invalidateAccrual_frame (sha : String → String) (store : RewardLedgerStore)
    (roundId readingId operatorId : String) (now : JsNumber) :
    (invalidateAccrual sha store roundId readingId operatorId now).1.payouts = store.payouts ∧
      ∀ op,
        entryTotal .accrual (invalidateAccrual sha store roundId readingId operatorId now).1 op =
          entryTotal .accrual store op := by
  unfold invalidateAccrual
  dsimp only
  split
  · exact ⟨rfl, fun _ => rfl⟩
  split
  · exact ⟨rfl, fun _ => rfl⟩
  · refine ⟨appendEntry_payouts _ _, fun op => ?_⟩
    exact entryTotal_appendEntry_of_ne (by simp) _ _

/-! ## Balances -/

/-- What an entry adds to its operator's balance. -/
def balanceShare (operatorId : String) (e : LedgerEntry) : ℚ :=
  entryShare .accrual operatorId e + entryShare .adjustment operatorId e

theorem getD_addBalance (m : OrdMap String ℚ) (e : LedgerEntry) (operatorId : String) :
    ((addBalance m e).get? operatorId).getD 0 =
      (m.get? operatorId).getD 0 + balanceShare operatorId e := by
  unfold addBalance balanceShare entryShare
  cases htype : e.type with
  | payout => simp
  | accrual | adjustment =>
    by_cases hop : operatorId = e.operatorId
    · subst hop
      simp
    · simp [get?_set_of_ne hop, Ne.symm hop]

theorem getD_foldl_addBalance (entries : List LedgerEntry) (m : OrdMap String ℚ)
    (operatorId : String) :
    ((entries.foldl addBalance m).get? operatorId).getD 0 =
      (m.get? operatorId).getD 0 + (entries.map (balanceShare operatorId)).sum := by
  induction entries generalizing m with
  | nil => simp
  | cons _ _ ih =>
    rw [foldl_cons, ih, getD_addBalance, map_cons, sum_cons, add_assoc]

variable {store : RewardLedgerStore}

/-- The balance that is paid out is the operator's accruals plus its adjustments. -/
theorem balances_eq {p : String × ℚ} (hp : p ∈ (balances store).entries) :
    p.2 = entryTotal .accrual store p.1 + entryTotal .adjustment store p.1 := by
  have hget : (balances store).get? p.1 = some p.2 := mem_entries_iff.1 hp
  have hsum := getD_foldl_addBalance (store.listEntries "") OrdMap.empty p.1
  have hlist : store.listEntries "" = store.entries.values := by
    simp [listEntries]
  have hsplit : (store.entries.values.map (balanceShare p.1)).sum =
      entryTotal .accrual store p.1 + entryTotal .adjustment store p.1 :=
    sum_map_add
  unfold balances at hget
  rw [hget, hlist, hsplit] at hsum
  simpa using hsum

/-! ## The invariant -/

/-- Every record is stored under the key of its operator and amount. -/
def Keyed (host : Host) (sha : String → String) (store : RewardLedgerStore) : Prop :=
  ∀ key p, store.payouts.get? key = some p →
    p.idempotencyKey = key ∧ key = payoutIdempotencyKey host sha p.operatorId p.amount

/-- The part of the operator's records that is marked paid. -/
def paidShare (operatorId : String) (p : PayoutRecord) : ℚ :=
  if p.status = .paid then payoutShare operatorId p else 0

structure RewardInv (host : Host) (sha : String → String) (s : RewardState) : Prop where
  keyed : Keyed host sha s.store
  nonneg : ∀ p ∈ s.store.payouts.values, 0 ≤ p.amount
  history : ∀ op, paidTotal s.everPaid op = (s.store.payouts.values.map (paidShare op)).sum
  bounded : ∀ op, payoutTotal s.store op ≤ entryTotal .accrual s.store op

variable {s : RewardState}

/-- The invariant reads the payout records, what was paid, and the accruals from below. -/
theorem RewardInv.of_frame {host : Host} {sha : String → String} {t : RewardState}
    (h : RewardInv host sha s) (hpay : t.store.payouts = s.store.payouts)
    (hpaid : t.everPaid = s.everPaid)
    (haccr : ∀ op, entryTotal .accrual s.store op ≤ entryTotal .accrual t.store op) :
    RewardInv host sha t := by
  refine ⟨?_, ?_, ?_, ?_⟩
  · unfold Keyed
    rw [hpay]
    exact h.keyed
  · rw [hpay]
    exact h.nonneg
  · rw [hpay, hpaid]
    exact h.history
  · intro op
    have hsame : payoutTotal t.store op = payoutTotal s.store op := by
      unfold payoutTotal
      rw [hpay]
    rw [hsame]
    exact (h.bounded op).trans (haccr op)

/-! ## Scheduling -/

theorem roundDust_le (value : ℚ) : roundDust value ≤ value := by
  unfold roundDust
  rw [div_le_iff₀ (by norm_num)]
  exact Int.floor_le _

theorem roundDust_nonneg {value : ℚ} (h : 0 ≤ value) : 0 ≤ roundDust value := by
  apply div_nonneg
  · exact_mod_cast Int.floor_nonneg.2 (by positivity)
  · norm_num

variable {p : PayoutRecord} {t : RewardLedgerStore}

section Scheduling

variable {host : Host} {sha : String → String} {operatorId : String}

theorem mem_listPayouts (hp : p ∈ store.payouts.values) (hop : p.operatorId = operatorId) :
    p ∈ store.listPayouts operatorId := by
  unfold listPayouts
  split
  · exact hp
  · exact mem_filter.2 ⟨hp, by simpa using hop⟩

variable {balance : ℚ}

/-- `t` is `s` with more pending records and nothing else changed. -/
structure Schedules (host : Host) (sha : String → String) (s t : RewardLedgerStore) : Prop where
  keyed : Keyed host sha t
  nonneg : ∀ p ∈ t.payouts.values, 0 ≤ p.amount
  entries : t.entries = s.entries
  paid : ∀ op, (t.payouts.values.map (paidShare op)).sum = (s.payouts.values.map (paidShare op)).sum
  grows : ∀ key p, s.payouts.get? key = some p → t.payouts.get? key = some p

theorem Schedules.trans {s u : RewardLedgerStore} (h : Schedules host sha s t)
    (h' : Schedules host sha t u) : Schedules host sha s u where
  keyed := h'.keyed
  nonneg := h'.nonneg
  entries := h'.entries.trans h.entries
  paid op := (h'.paid op).trans (h.paid op)
  grows key p hp := h'.grows key p (h.grows key p hp)

/-- With more records fewer payouts are created. -/
theorem Schedules.schedulesFor {s : RewardLedgerStore} (h : Schedules host sha s t)
    (ht : schedulesFor host sha t operatorId balance) :
    schedulesFor host sha s operatorId balance := by
  refine ⟨ht.1, find?_eq_none.2 fun p hp => ?_⟩
  have hvalue : p ∈ t.payouts.values → p ∈ t.listPayouts operatorId := by
    intro hv
    by_cases hemp : operatorId = ""
    · simpa [listPayouts, hemp] using hv
    have hop : p.operatorId = operatorId := by
      have := hp
      simp only [listPayouts, hemp, if_false, mem_filter] at this
      simpa using this.2
    exact mem_listPayouts hv hop
  have hmem : p ∈ s.payouts.values := by
    unfold listPayouts at hp
    split at hp
    · exact hp
    · exact (mem_filter.1 hp).1
  obtain ⟨key, hkey⟩ := mem_values_iff.1 hmem
  exact find?_eq_none.1 ht.2 p (hvalue (mem_values_iff.2 ⟨key, h.grows key p hkey⟩))

/-- The records are under their own keys, and no amount is negative. -/
abbrev Recorded (host : Host) (sha : String → String) (store : RewardLedgerStore) : Prop :=
  Keyed host sha store ∧ ∀ p ∈ store.payouts.values, 0 ≤ p.amount

/-- One more record is stored under its own key. -/
theorem Recorded.set (h : Recorded host sha store)
    (hkey : p.idempotencyKey = payoutIdempotencyKey host sha p.operatorId p.amount)
    (hamt : 0 ≤ p.amount) (ht : t.payouts = store.payouts.set p.idempotencyKey p) :
    Recorded host sha t := by
  unfold Recorded Keyed
  rw [ht]
  refine ⟨?_, ?_⟩
  · exact forall_get?_set h.1 ⟨rfl, hkey⟩
  · intro q hq
    obtain ⟨key, hq⟩ := mem_values_iff.1 hq
    rcases get?_set_eq_some_iff.1 hq with ⟨-, rfl⟩ | ⟨-, hold⟩
    · exact hamt
    · exact h.2 q (mem_values_iff.2 ⟨key, hold⟩)

theorem Recorded.schedules_refl (h : Recorded host sha store) : Schedules host sha store store :=
  ⟨h.1, h.2, rfl, fun _ => rfl, fun _ _ h => h⟩

variable (hsha : Function.Injective sha) (hcolon : ∀ q, ':' ∉ (host.numberToString q).toList)

include hsha hcolon

/-- The key of a payout determines its operator. -/
theorem payoutIdempotencyKey_operator {a b : String} {x y : ℚ}
    (h : payoutIdempotencyKey host sha a x = payoutIdempotencyKey host sha b y) : a = b := by
  have htext := congrArg String.toList (hsha h)
  have hcut : "payout:".toList ++ a.toList ++ ':' :: (host.numberToString x).toList =
      "payout:".toList ++ b.toList ++ ':' :: (host.numberToString y).toList := by
    simpa [String.toList_append] using htext
  have hleft := (append_separator_inj (hcolon x) (hcolon y) hcut).1
  exact String.toList_inj.1 (append_cancel_left hleft)

/-- A payout is created under a key that is not taken. -/
theorem get?_of_schedulesFor (hkeyed : Keyed host sha store)
    (h : schedulesFor host sha store operatorId balance) :
    store.payouts.get? (payoutIdempotencyKey host sha operatorId (roundDust balance)) = none := by
  cases hget :
      store.payouts.get? (payoutIdempotencyKey host sha operatorId (roundDust balance)) with
  | none => rfl
  | some p =>
    obtain ⟨hkey, hrcd⟩ := hkeyed _ p hget
    have hop : p.operatorId = operatorId :=
      (payoutIdempotencyKey_operator hsha hcolon hrcd).symm
    have hmem := mem_listPayouts (mem_values_iff.2 ⟨_, hget⟩) hop
    have hnone := find?_eq_none.1 h.2 p hmem
    simp [hkey] at hnone

/-- One created payout. -/
theorem schedules_upsert (hrec : Recorded host sha store) (now : JsNumber)
    (h : schedulesFor host sha store operatorId balance) :
    Schedules host sha store (store.upsertPayout (newPayout host sha now operatorId balance)) := by
  have hnone := get?_of_schedulesFor hsha hcolon hrec.1 h
  have hmin : (0 : ℚ) ≤ minPayoutThreshold := by unfold minPayoutThreshold; norm_num
  have hset : Recorded host sha (store.upsertPayout (newPayout host sha now operatorId balance)) :=
    hrec.set rfl (roundDust_nonneg (hmin.trans h.1)) rfl
  refine ⟨hset.1, hset.2, rfl, ?_, ?_⟩
  · intro op
    have hsum := sum_values_set (paidShare op) store.payouts
      (payoutIdempotencyKey host sha operatorId (roundDust balance))
      (newPayout host sha now operatorId balance)
    rw [hnone] at hsum
    simpa [upsertPayout, newPayout, paidShare] using hsum
  · intro key p hp
    refine (get?_set_of_ne ?_).trans hp
    rintro rfl
    cases hnone.symm.trans hp

/-- One iteration adds the operator's balance, or nothing. -/
theorem schedulePayout_spec {acc : RewardLedgerStore × List PayoutRecord}
    (hrec : Recorded host sha acc.1) (now : JsNumber) (b : String × ℚ) :
    Schedules host sha acc.1 (schedulePayout host sha now acc b).1 ∧
      ∀ op, payoutTotal (schedulePayout host sha now acc b).1 op = payoutTotal acc.1 op ∨
        op = b.1 ∧ schedulesFor host sha acc.1 b.1 b.2 ∧
          payoutTotal (schedulePayout host sha now acc b).1 op =
            payoutTotal acc.1 op + roundDust b.2 := by
  unfold schedulePayout
  split
  · rename_i hfor
    refine ⟨schedules_upsert hsha hcolon hrec now hfor, fun op => ?_⟩
    have htot := payoutTotal_upsertPayout acc.1 (newPayout host sha now b.1 b.2) op
    have hnone : acc.1.payouts.get? (newPayout host sha now b.1 b.2).idempotencyKey = none :=
      get?_of_schedulesFor hsha hcolon hrec.1 hfor
    rw [hnone] at htot
    by_cases hop : op = b.1
    · right
      refine ⟨hop, hfor, ?_⟩
      simpa [payoutShare, newPayout, hop] using htot
    · left
      simpa [payoutShare, newPayout, Ne.symm hop] using htot
  · exact ⟨hrec.schedules_refl, fun op => .inl rfl⟩

/-- A whole `schedulePayouts` creates at most one payout for each operator, for its balance. -/
theorem schedulePayouts_spec (now : JsNumber) (l : List (String × ℚ)) (hnd : (l.map Prod.fst).Nodup)
    (acc : RewardLedgerStore × List PayoutRecord) (hrec : Recorded host sha acc.1) :
    Schedules host sha acc.1 (l.foldl (schedulePayout host sha now) acc).1 ∧
      ∀ op, payoutTotal (l.foldl (schedulePayout host sha now) acc).1 op = payoutTotal acc.1 op ∨
        ∃ b, (op, b) ∈ l ∧ schedulesFor host sha acc.1 op b ∧
          payoutTotal (l.foldl (schedulePayout host sha now) acc).1 op =
            payoutTotal acc.1 op + roundDust b := by
  induction l generalizing acc with
  | nil => exact ⟨hrec.schedules_refl, fun op => .inl rfl⟩
  | cons b rest ih =>
    rw [map_cons, nodup_cons] at hnd
    obtain ⟨hstep, htot⟩ := schedulePayout_spec hsha hcolon hrec now b
    obtain ⟨hrest, hrestTotal⟩ := ih hnd.2 _ ⟨hstep.keyed, hstep.nonneg⟩
    rw [foldl_cons]
    refine ⟨hstep.trans hrest, fun op => ?_⟩
    rcases hrestTotal op with hsame | ⟨x, hx, hfor, hadd⟩
    · rw [hsame]
      rcases htot op with hhead | ⟨rfl, hfor, hhead⟩
      · exact .inl hhead
      · exact .inr ⟨b.2, mem_cons_self, hfor, hhead⟩
    -- The operator occurs in the rest, so the head was another one.
    have hne : op ≠ b.1 := by
      rintro rfl
      exact hnd.1 (mem_map.2 ⟨_, hx, rfl⟩)
    have hhead : payoutTotal (schedulePayout host sha now acc b).1 op = payoutTotal acc.1 op := by
      rcases htot op with hhead | ⟨heq, -⟩
      · exact hhead
      · exact absurd heq hne
    rw [hhead] at hadd
    exact .inr ⟨x, mem_cons_of_mem _ hx, hstep.schedulesFor hfor, hadd⟩

end Scheduling

/-! ## Settling -/

variable {host : Host} {sha : String → String}

/-- Settling one record found in the store marks it paid and changes no total. -/
theorem settlePayout_spec (now : JsNumber) (hget : store.payouts.get? p.idempotencyKey = some p)
    (hpend : p.status ≠ .paid) :
    (settlePayout now store p).payouts = store.payouts.set p.idempotencyKey p.asPaid ∧
      (∀ op, entryTotal .accrual (settlePayout now store p) op = entryTotal .accrual store op) ∧
      (∀ op, payoutTotal (settlePayout now store p) op = payoutTotal store op) ∧
      ∀ op, ((settlePayout now store p).payouts.values.map (paidShare op)).sum =
        (store.payouts.values.map (paidShare op)).sum + payoutShare op p.asPaid := by
  have hpay : (settlePayout now store p).payouts = store.payouts.set p.idempotencyKey p.asPaid := by
    simp [settlePayout, upsertPayout, PayoutRecord.asPaid]
  refine ⟨hpay, ?_, ?_, ?_⟩
  · intro op
    exact entryTotal_appendEntry_of_ne (by simp) _ _
  · intro op
    have hsum := sum_values_set (payoutShare op) store.payouts p.idempotencyKey p.asPaid
    have hshare : payoutShare op p.asPaid = payoutShare op p := rfl
    unfold payoutTotal
    rw [hpay, hsum, hget, hshare, Option.map_some, Option.getD_some, add_sub_cancel_right]
  · intro op
    have hsum := sum_values_set (paidShare op) store.payouts p.idempotencyKey p.asPaid
    rw [hpay, hsum, hget]
    simp [paidShare, hpend, PayoutRecord.asPaid]

/-- Settling a list of distinct records found in the store. -/
theorem settlePayouts_spec (now : JsNumber) (due : List PayoutRecord)
    (hnd : (due.map (·.idempotencyKey)).Nodup) (store : RewardLedgerStore)
    (hget : ∀ p ∈ due, store.payouts.get? p.idempotencyKey = some p)
    (hpend : ∀ p ∈ due, p.status ≠ .paid) (hrec : Recorded host sha store) :
    Recorded host sha (due.foldl (settlePayout now) store) ∧
      (∀ op, entryTotal .accrual (due.foldl (settlePayout now) store) op =
        entryTotal .accrual store op) ∧
      (∀ op, payoutTotal (due.foldl (settlePayout now) store) op = payoutTotal store op) ∧
      ∀ op, ((due.foldl (settlePayout now) store).payouts.values.map (paidShare op)).sum =
        (store.payouts.values.map (paidShare op)).sum +
          paidTotal (due.map PayoutRecord.asPaid) op := by
  induction due generalizing store with
  | nil => exact ⟨hrec, fun _ => rfl, fun _ => rfl, fun _ => by simp [paidTotal]⟩
  | cons p rest ih =>
    rw [map_cons, nodup_cons] at hnd
    have hp := hget p mem_cons_self
    obtain ⟨hpay, haccr, htot, hpaid⟩ :=
      settlePayout_spec now hp (hpend p mem_cons_self)
    -- The other records are stored under other keys and stay as they are.
    have hrest : ∀ q ∈ rest, (settlePayout now store p).payouts.get? q.idempotencyKey = some q := by
      intro q hq
      have hne : q.idempotencyKey ≠ p.idempotencyKey := by
        intro heq
        exact hnd.1 (heq ▸ mem_map_of_mem hq)
      rw [hpay, get?_set_of_ne hne]
      exact hget q (mem_cons_of_mem _ hq)
    have hset := hrec.set (p := p.asPaid) (hrec.1 _ p hp).2
      (hrec.2 p (mem_values_iff.2 ⟨_, hp⟩)) hpay
    obtain ⟨hrec', haccr', htot', hpaid'⟩ := ih hnd.2 (settlePayout now store p)
      hrest (fun q hq => hpend q (mem_cons_of_mem _ hq)) hset
    refine ⟨hrec', fun op => ?_, fun op => ?_, fun op => ?_⟩
    · rw [foldl_cons, haccr', haccr]
    · rw [foldl_cons, htot', htot]
    · rw [foldl_cons, hpaid', hpaid]
      simp only [paidTotal, map_cons, sum_cons]
      ring

/-! ## Runs -/

theorem rewardInv_start : RewardInv host sha start :=
  ⟨by rintro _ _ ⟨⟩, by rintro _ ⟨⟩, fun _ => rfl, fun _ => le_refl _⟩

theorem rewardInv_schedulePayouts (hsha : Function.Injective sha)
    (hcolon : ∀ q, ':' ∉ (host.numberToString q).toList) {now : JsNumber} (h : RewardInv host sha s)
    (hcov : Covered host sha s (.schedulePayouts now)) :
    RewardInv host sha (rewardStep host sha s (.schedulePayouts now)) := by
  obtain ⟨hsched, htot⟩ := schedulePayouts_spec hsha hcolon now (balances s.store).entries
    (balances s.store).nodup (s.store, []) ⟨h.keyed, h.nonneg⟩
  refine ⟨hsched.keyed, hsched.nonneg, ?_, ?_⟩
  · intro op
    exact (h.history op).trans (hsched.paid op).symm
  · intro op
    have haccr : entryTotal .accrual (schedulePayouts host sha s.store now).1 op =
        entryTotal .accrual s.store op := by
      unfold entryTotal schedulePayouts
      rw [hsched.entries]
    show payoutTotal (schedulePayouts host sha s.store now).1 op ≤
      entryTotal .accrual (schedulePayouts host sha s.store now).1 op
    rw [haccr]
    rcases htot op with hsame | ⟨b, hb, hfor, hadd⟩
    · exact hsame.le.trans (h.bounded op)
    have hbalance := balances_eq hb
    have hex := hcov (op, b) hb hfor
    have hround := roundDust_le b
    calc payoutTotal (schedulePayouts host sha s.store now).1 op
        = payoutTotal s.store op + roundDust b := hadd
      _ ≤ -entryTotal .adjustment s.store op +
          (entryTotal .accrual s.store op + entryTotal .adjustment s.store op) := by
            rw [← hbalance]
            exact add_le_add hex hround
      _ = entryTotal .accrual s.store op := by ring

theorem rewardInv_settlePayouts (now : JsNumber) (h : RewardInv host sha s) :
    RewardInv host sha (rewardStep host sha s (.settlePayouts now)) := by
  have hlist : s.store.listPayouts "" = s.store.payouts.values := by
    simp [listPayouts]
  have hdue : ∀ p ∈ (s.store.listPayouts "").filter (settles now),
      p ∈ s.store.payouts.values ∧ settles now p = true := by
    intro p hp
    exact mem_filter.1 hp
  obtain ⟨⟨hkeyed, hnonneg⟩, haccr, htot, hpaid⟩ := settlePayouts_spec now
    ((s.store.listPayouts "").filter (settles now))
    (by
      refine (nodup_map_values ?_).sublist (List.Sublist.map _ filter_sublist)
      exact fun key p hp => (h.keyed key p hp).1)
    s.store
    (by
      intro p hp
      obtain ⟨key, hkey⟩ := mem_values_iff.1 (hdue p hp).1
      rw [(h.keyed key p hkey).1]
      exact hkey)
    (by
      intro p hp hstat
      have hsettles := (hdue p hp).2
      simp [settles, hstat] at hsettles)
    ⟨h.keyed, h.nonneg⟩
  refine ⟨hkeyed, hnonneg, ?_, ?_⟩
  · intro op
    show paidTotal (s.everPaid ++ (settlePayouts s.store now).2) op = _
    unfold paidTotal
    rw [map_append, sum_append]
    exact (congrArg (· + paidTotal (settlePayouts s.store now).2 op) (h.history op)).trans
      (hpaid op).symm
  · intro op
    exact ((htot op).le.trans (h.bounded op)).trans (haccr op).ge

/-- Every call that is covered keeps the invariant. -/
theorem rewardInv_step (hsha : Function.Injective sha)
    (hcolon : ∀ q, ':' ∉ (host.numberToString q).toList) {call : RewardCall}
    (h : RewardInv host sha s) (hcov : Covered host sha s call) :
    RewardInv host sha (rewardStep host sha s call) := by
  cases call with
  | accrueRewards readings now =>
    obtain ⟨hpay, haccr⟩ := accrueRewards_frame sha s.store readings now
    exact h.of_frame hpay rfl haccr
  | invalidateAccrual roundId readingId operatorId now =>
    obtain ⟨hpay, haccr⟩ :=
      invalidateAccrual_frame sha s.store roundId readingId operatorId now
    exact h.of_frame hpay rfl fun op => (haccr op).ge
  | schedulePayouts => exact rewardInv_schedulePayouts hsha hcolon h hcov
  | settlePayouts now => exact rewardInv_settlePayouts now h

/-- Records marked paid are part of the operator's records. -/
theorem RewardInv.paid_le (h : RewardInv host sha s) (op : String) :
    paidTotal s.everPaid op ≤ payoutTotal s.store op := by
  rw [h.history op]
  apply sum_le_sum
  intro p hp
  have hamt := h.nonneg p hp
  unfold paidShare payoutShare
  split
  · exact le_refl _
  split
  · exact hamt
  · exact le_refl _

/-- From an empty store, along every run of covered calls, what an operator was ever paid is at
most what it accrued. -/
theorem paid_le_accrued (hsha : Function.Injective sha)
    (hcolon : ∀ q, ':' ∉ (host.numberToString q).toList) {s : RewardState}
    (hrun : RunWhere (fun a call b => rewardStep host sha a call = b) (Covered host sha)
      start s) (operatorId : String) :
    paidTotal s.everPaid operatorId ≤ entryTotal .accrual s.store operatorId := by
  have hinv : RewardInv host sha s := by
    refine hrun.invariant _ rewardInv_start ?_
    rintro a call _ ha hcovered rfl
    exact rewardInv_step hsha hcolon ha hcovered
  exact (hinv.paid_le operatorId).trans (hinv.bounded operatorId)

/-! ## One operator, two rounds -/

/-- A reading that earns the full base reward. -/
def fullReading (roundId : String) : ConsensusReading where
  readingId := "r"
  roundId
  operatorId := "op"
  includedInConsensus := true
  status := .committed
  stake := .finite 100000
  reputation := .finite 1

/-- One round accrued, scheduled, and settled after the dispute window. -/
def roundCalls (roundId : String) (now : ℚ) : List RewardCall :=
  [.accrueRewards [fullReading roundId] (.finite now), .schedulePayouts (.finite now),
    .settlePayouts (.finite (now + disputeWindowMs))]

/-- The second payout is scheduled for the balance of both rounds: after two rounds of 100 each,
300 have been paid. -/
theorem overpaid_after_second_accrual :
    paidTotal ((roundCalls "1" 0 ++ roundCalls "2" 86400001).foldl (rewardStep plainHost id)
        start).everPaid "op" = 300 ∧
      entryTotal .accrual ((roundCalls "1" 0 ++ roundCalls "2" 86400001).foldl
        (rewardStep plainHost id) start).store "op" = 200 := by
  constructor <;> decide +kernel

/-- The first round alone is a covered run. -/
theorem paid_le_accrued_first_round :
    paidTotal ((roundCalls "1" 0).foldl (rewardStep plainHost id) start).everPaid "op" ≤
      entryTotal .accrual
        ((roundCalls "1" 0).foldl (rewardStep plainHost id) start).store "op" := by
  refine @paid_le_accrued plainHost id Function.injective_id
    (notMem_decimalString (by decide) (by decide)) _ ?_ "op"
  have h1 : RunWhere (fun a call b => rewardStep plainHost id a call = b) (Covered plainHost id)
      start
      (rewardStep plainHost id start (.accrueRewards [fullReading "1"] (.finite 0))) :=
    RunWhere.snoc Relation.ReflTransGen.refl (.accrueRewards [fullReading "1"] (.finite 0)) trivial
      rfl
  have h2 := RunWhere.snoc h1 (.schedulePayouts (.finite 0)) (by unfold Covered; decide +kernel) rfl
  exact RunWhere.snoc h2 (.settlePayouts (.finite (0 + disputeWindowMs))) trivial rfl

end Refract.Services
