import Refract.Lib.Sorting
import Refract.Lib.Tables

/-!
# The publish queue

`OraclePublishQueueRepository` of `oracle-publish-queue.repository.ts` over the table of
`004_oracle_publish_queue.sql`. Each operation is one SQL statement, so one atomic change of the
table. Ids come from a sequence, which gives each insert the next number; times are milliseconds on
the database clock.
-/

namespace Refract.Oracle

open Lib List

/-! ## The table -/

inductive QueueStatus where
  | pending
  | inflight
  | published
  | failed
  deriving DecidableEq, Repr

/-- A row of `oracle_publish_queue`. -/
structure QueueRow where
  id : Nat
  decisionKey : String
  feed : String
  valueScaled : Int
  priority : Int
  status : QueueStatus
  attempts : Nat
  nextAttemptAt : ℚ
  lastError : Option String
  txHash : Option String
  ledger : Option Int
  publishedAt : Option ℚ
  deriving DecidableEq

/-- The rows and the next number of the sequence. -/
structure PublishQueue where
  rows : List QueueRow
  nextId : Nat

def PublishQueue.empty : PublishQueue := ⟨[], 1⟩

/-- What the publisher sees of a row. -/
structure PendingDecision where
  id : Nat
  decisionKey : String
  feed : String
  valueScaled : Int
  priority : Int
  attempts : Nat
  txHash : Option String
  deriving DecidableEq

def toDecision (r : QueueRow) : PendingDecision :=
  ⟨r.id, r.decisionKey, r.feed, r.valueScaled, r.priority, r.attempts, r.txHash⟩

structure NewDecision where
  decisionKey : String
  feed : String
  valueScaled : Int
  priority : Int

/-- The row of a new decision. -/
def newRow (id : Nat) (decision : NewDecision) (now : ℚ) : QueueRow where
  id
  decisionKey := decision.decisionKey
  feed := decision.feed
  valueScaled := decision.valueScaled
  priority := decision.priority
  status := .pending
  attempts := 0
  nextAttemptAt := now
  lastError := none
  txHash := none
  ledger := none
  publishedAt := none

namespace PublishQueue

/-- `INSERT … ON CONFLICT (decision_key) DO NOTHING`; the sequence advances in either case. -/
def enqueue (queue : PublishQueue) (decision : NewDecision) (now : ℚ) : PublishQueue × Bool :=
  if queue.rows.any fun r => r.decisionKey = decision.decisionKey then
    ({ queue with nextId := queue.nextId + 1 }, false)
  else
    (⟨queue.rows ++ [newRow queue.nextId decision now], queue.nextId + 1⟩, true)

end PublishQueue

/-! ## Claiming a batch -/

/-- The rows that are not resolved yet. -/
def QueueRow.isOpen (r : QueueRow) : Bool := r.status = .pending || r.status = .inflight

/-- `row_number() OVER (PARTITION BY feed ORDER BY id)`. -/
def rowNumber (openRows : List QueueRow) (r : QueueRow) : Nat :=
  openRows.countP fun e => e.feed = r.feed && e.id ≤ r.id

/-- `max(priority) OVER (PARTITION BY feed)`. -/
def feedPriority (openRows : List QueueRow) (feed : String) : Int :=
  ((openRows.filter (·.feed = feed)).map (·.priority)).max?.getD 0

/-- The row may be claimed: it is due, near the head of its feed, and no earlier row of its feed is
in flight or backing off. -/
def isEligible (openRows : List QueueRow) (perFeedCap : Nat) (excludeFeeds : List String) (now : ℚ)
    (r : QueueRow) : Bool :=
  r.status = .pending && r.nextAttemptAt ≤ now && rowNumber openRows r ≤ perFeedCap &&
    !excludeFeeds.contains r.feed &&
    !openRows.any fun e =>
      e.feed = r.feed && e.id < r.id && (e.status = .inflight || now < e.nextAttemptAt)

/-- `ORDER BY feed_priority DESC, id`. -/
def compareClaims (openRows : List QueueRow) (a b : QueueRow) : Ordering :=
  (compare (-feedPriority openRows a.feed) (-feedPriority openRows b.feed)).then
    (compare a.id b.id)

/-- The rows that a claim takes. -/
def picked (rows : List QueueRow) (limit perFeedCap : Nat) (excludeFeeds : List String) (now : ℚ) :
    List QueueRow :=
  let openRows := rows.filter (·.isOpen)
  (sortBy (compareClaims openRows)
    (openRows.filter (isEligible openRows perFeedCap excludeFeeds now))).take limit

/-- A claimed row. -/
def QueueRow.claimed (r : QueueRow) : QueueRow :=
  { r with status := .inflight, attempts := r.attempts + 1 }

/-- Claims up to `limit` eligible rows; the batch is in publish order. -/
def PublishQueue.claim (queue : PublishQueue) (limit perFeedCap : Nat) (excludeFeeds : List String)
    (now : ℚ) : PublishQueue × List PendingDecision :=
  let ids := (picked queue.rows limit perFeedCap excludeFeeds now).map (·.id)
  let isPicked (r : QueueRow) : Bool := ids.contains r.id
  ({ queue with rows := updateWhere isPicked (·.claimed) queue.rows },
    sortBy (fun a b => compare a.id b.id)
      ((queue.rows.filter isPicked).map fun r => toDecision r.claimed))

/-! ## Statements of the publisher -/

/-- What the publisher writes about decisions it has claimed. -/
inductive QueueStatement where
  | markPublished (ids : List Nat) (txHash : String) (ledger : Option Int)
  | release (ids : List Nat) (delayMs : ℚ) (error : String) (txHash : Option String)
  | markFailed (ids : List Nat) (error : String)

namespace QueueStatement

/-- The decisions that a statement is about. -/
def ids : QueueStatement → List Nat
  | markPublished ids .. | release ids .. | markFailed ids .. => ids

/-- The columns that a statement sets. -/
def update (now : ℚ) : QueueStatement → QueueRow → QueueRow
  | markPublished _ txHash ledger, r =>
    { r with
      status := .published, txHash := some txHash, ledger, publishedAt := some now
      lastError := none }
  | release _ delayMs error txHash, r =>
    { r with
      status := .pending, lastError := some (takeChars 500 error), txHash := txHash.or r.txHash
      nextAttemptAt := now + max 0 (mathRound delayMs) }
  | markFailed _ error, r =>
    { r with status := .failed, lastError := some (takeChars 500 error) }

end QueueStatement

namespace PublishQueue

/-- `markPublished`, `release` and `markFailed`: `UPDATE … WHERE id = ANY(ids)`. -/
def execute (queue : PublishQueue) (statement : QueueStatement) (now : ℚ) : PublishQueue :=
  { queue with
    rows := updateWhere (fun r => statement.ids.contains r.id) (statement.update now) queue.rows }

/-- Startup recovery: rows left in flight go back to pending. -/
def recoverInflight (queue : PublishQueue) : PublishQueue :=
  { queue with
    rows := updateWhere (fun r => decide (r.status = .inflight))
      (fun r => { r with status := .pending }) queue.rows }

end PublishQueue

/-! ## What a claim takes -/

variable {rows openRows : List QueueRow} {limit perFeedCap : Nat} {excludeFeeds : List String}
  {now : ℚ}

instance (openRows : List QueueRow) : Std.TransCmp (compareClaims openRows) := by
  unfold compareClaims
  infer_instance

/-- An eligible row is due, of a feed that is not in flight, and not behind a blocked one. -/
structure Eligible (openRows : List QueueRow) (perFeedCap : Nat) (excludeFeeds : List String)
    (now : ℚ) (r : QueueRow) : Prop where
  pending : r.status = .pending
  due : r.nextAttemptAt ≤ now
  near : rowNumber openRows r ≤ perFeedCap
  free : r.feed ∉ excludeFeeds
  head : ∀ e ∈ openRows, e.feed = r.feed → e.id < r.id →
    e.status ≠ .inflight ∧ e.nextAttemptAt ≤ now

theorem isEligible_iff {r : QueueRow} :
    isEligible openRows perFeedCap excludeFeeds now r = true ↔
      Eligible openRows perFeedCap excludeFeeds now r := by
  simp only [isEligible, Bool.and_eq_true, Bool.not_eq_true', decide_eq_true_eq,
    contains_eq_mem, decide_eq_false_iff_not, any_eq_false]
  constructor
  · rintro ⟨⟨⟨⟨hpend, hdue⟩, hnear⟩, hfree⟩, hhead⟩
    refine ⟨hpend, hdue, hnear, hfree, ?_⟩
    intro e he hfeed hid
    have hblocked := hhead e he
    simp only [hfeed, hid, true_and, Bool.or_eq_true, decide_eq_true_eq, not_or, not_lt] at hblocked
    exact hblocked
  · intro h
    refine ⟨⟨⟨⟨h.pending, h.due⟩, h.near⟩, h.free⟩, ?_⟩
    rintro e he ⟨⟨hfeed, hid⟩, hblocked⟩
    obtain ⟨hstat, hdue⟩ := h.head e he hfeed hid
    simp only [Bool.or_eq_true, decide_eq_true_eq] at hblocked
    exact hblocked.elim hstat (not_lt.2 hdue)

theorem mem_picked {r : QueueRow} (h : r ∈ picked rows limit perFeedCap excludeFeeds now) :
    r ∈ rows ∧ Eligible (rows.filter (·.isOpen)) perFeedCap excludeFeeds now r := by
  have hsort := mem_sortBy.1 (mem_of_mem_take h)
  obtain ⟨hopen, helig⟩ := mem_filter.1 hsort
  exact ⟨(mem_filter.1 hopen).1, isEligible_iff.1 helig⟩

/-- With a row, a claim takes every earlier open row of the feed. -/
theorem picked_closed {r e : QueueRow} (hr : r ∈ picked rows limit perFeedCap excludeFeeds now)
    (he : e ∈ rows) (hopen : e.isOpen = true) (hfeed : e.feed = r.feed) (hid : e.id < r.id) :
    e ∈ picked rows limit perFeedCap excludeFeeds now := by
  obtain ⟨hmem, helig⟩ := mem_picked hr
  have heOpen : e ∈ rows.filter (·.isOpen) := mem_filter.2 ⟨he, hopen⟩
  obtain ⟨hnotInflight, hdue⟩ := helig.head e heOpen hfeed hid
  have hpend : e.status = .pending := by
    simp only [QueueRow.isOpen, Bool.or_eq_true, decide_eq_true_eq] at hopen
    exact hopen.resolve_right hnotInflight
  -- What does not block the later row does not block the earlier one.
  have hele : Eligible (rows.filter (·.isOpen)) perFeedCap excludeFeeds now e := by
    refine ⟨hpend, hdue, ?_, ?_, ?_⟩
    · refine le_trans (countP_mono_left ?_) helig.near
      intro x _ hx
      simp only [Bool.and_eq_true, decide_eq_true_eq] at hx ⊢
      exact ⟨hx.1.trans hfeed, hx.2.trans hid.le⟩
    · rw [hfeed]
      exact helig.free
    · intro x hx hxFeed hxId
      exact helig.head x hx (hxFeed.trans hfeed) (hxId.trans hid)
  have hin : e ∈ sortBy (compareClaims (rows.filter (·.isOpen))) ((rows.filter (·.isOpen)).filter
        (isEligible (rows.filter (·.isOpen)) perFeedCap excludeFeeds now)) :=
    mem_sortBy.2 (mem_filter.2 ⟨heOpen, isEligible_iff.2 hele⟩)
  have hlt : compareClaims (rows.filter (·.isOpen)) e r = .lt := by
    rw [compareClaims, hfeed, (Std.ReflCmp.compare_self : compare (-feedPriority _ r.feed) _ = .eq)]
    exact Nat.compare_eq_lt.2 hid
  exact mem_take_of_lt (sortBy_pairwise _) hin hr hlt

variable {queue : PublishQueue}

/-- A claim puts the rows it takes in flight. -/
theorem mem_rows_claim (hkey : UniqueKey (·.id) queue.rows) {r' : QueueRow} :
    r' ∈ (queue.claim limit perFeedCap excludeFeeds now).1.rows ↔ ∃ r ∈ queue.rows,
        (r ∈ picked queue.rows limit perFeedCap excludeFeeds now ∧ r' = r.claimed) ∨
        (r ∉ picked queue.rows limit perFeedCap excludeFeeds now ∧ r' = r) := by
  have hpicked : ∀ r ∈ queue.rows,
      (((picked queue.rows limit perFeedCap excludeFeeds now).map (·.id)).contains r.id = true ↔
        r ∈ picked queue.rows limit perFeedCap excludeFeeds now) := by
    intro r hr
    rw [contains_iff_mem, mem_map]
    constructor
    · rintro ⟨p, hp, hid⟩
      rw [← hkey.eq (mem_picked hp).1 hr hid]
      exact hp
    · exact fun h => ⟨r, h, rfl⟩
  simp only [PublishQueue.claim, mem_updateWhere]
  constructor
  · rintro ⟨r, hr, ⟨hp, rfl⟩ | ⟨hp, rfl⟩⟩
    · exact ⟨r, hr, .inl ⟨(hpicked r hr).1 hp, rfl⟩⟩
    · refine ⟨r', hr, .inr ⟨?_, rfl⟩⟩
      intro h
      rw [(hpicked r' hr).2 h] at hp
      cases hp
  · rintro ⟨r, hr, ⟨hp, rfl⟩ | ⟨hp, rfl⟩⟩
    · exact ⟨r, hr, .inl ⟨(hpicked r hr).2 hp, rfl⟩⟩
    · exact ⟨r', hr, .inr ⟨eq_false_of_ne_true fun h => hp ((hpicked r' hr).1 h), rfl⟩⟩

theorem mem_batch_claim (hkey : UniqueKey (·.id) queue.rows) {d : PendingDecision} :
    d ∈ (queue.claim limit perFeedCap excludeFeeds now).2 ↔
      ∃ r ∈ picked queue.rows limit perFeedCap excludeFeeds now, d = toDecision r.claimed := by
  simp only [PublishQueue.claim, mem_sortBy, mem_map, mem_filter, contains_iff_mem]
  constructor
  · rintro ⟨r, ⟨hr, p, hp, hid⟩, rfl⟩
    rw [← hkey.eq (mem_picked hp).1 hr hid]
    exact ⟨p, hp, rfl⟩
  · rintro ⟨r, hr, rfl⟩
    exact ⟨r, ⟨(mem_picked hr).1, r, hr, rfl⟩, rfl⟩

/-- The batch is in publish order. -/
theorem batch_claim_sorted (hkey : UniqueKey (·.id) queue.rows) :
    (queue.claim limit perFeedCap excludeFeeds now).2.Pairwise fun a b => a.id < b.id := by
  have hperm := (@sortBy_perm _ (fun a b : PendingDecision => compare a.id b.id)
    ((queue.rows.filter fun r => ((picked queue.rows limit perFeedCap excludeFeeds now).map
      (·.id)).contains r.id).map fun r => toDecision r.claimed)).map PendingDecision.id
  have hdist : (queue.claim limit perFeedCap excludeFeeds now).2.Pairwise
      fun a b => a.id ≠ b.id := by
    refine pairwise_map.1 (hperm.nodup_iff.2 ?_)
    rw [map_map]
    exact List.Nodup.sublist (filter_sublist.map QueueRow.id) hkey
  refine ((sortBy_pairwise _).and hdist).imp ?_
  rintro a b ⟨hle, hne⟩
  exact lt_of_le_of_ne (Nat.isLE_compare.1 hle) hne

/-- What a claim does, with the rows that it has picked. -/
structure ClaimSpec (rows : List QueueRow) (excludeFeeds : List String)
    (taken rows' : List QueueRow) (batch : List PendingDecision) : Prop where
  mem_rows : ∀ r', r' ∈ rows' ↔
    ∃ r ∈ rows, (r ∈ taken ∧ r' = r.claimed) ∨ (r ∉ taken ∧ r' = r)
  mem_batch : ∀ d, d ∈ batch ↔ ∃ r ∈ taken, d = toDecision r.claimed
  sorted : batch.Pairwise fun a b => a.id < b.id
  eligible : ∀ r ∈ taken, r ∈ rows ∧ r.status = .pending ∧ r.feed ∉ excludeFeeds
  closed : ∀ r ∈ taken, ∀ e ∈ rows, e.isOpen = true → e.feed = r.feed → e.id < r.id → e ∈ taken

theorem claim_spec (hkey : UniqueKey (·.id) queue.rows) {queue' : PublishQueue}
    {batch : List PendingDecision}
    (hclaim : queue.claim limit perFeedCap excludeFeeds now = (queue', batch)) :
    ∃ taken, ClaimSpec queue.rows excludeFeeds taken queue'.rows batch := by
  cases hclaim
  refine ⟨picked queue.rows limit perFeedCap excludeFeeds now, ⟨fun _ => mem_rows_claim hkey,
    fun _ => mem_batch_claim hkey, batch_claim_sorted hkey, ?_, ?_⟩⟩
  · intro r hr
    obtain ⟨hmem, helig⟩ := mem_picked hr
    exact ⟨hmem, helig.pending, helig.free⟩
  · intro r hr e he hopen hfeed hid
    exact picked_closed hr he hopen hfeed hid

end Refract.Oracle
