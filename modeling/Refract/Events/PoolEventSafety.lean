import Refract.Lib.Runs
import Refract.Events.PoolEventIngestion

/-!
# The stored pool events are those up to the checkpoint

The checkpoint marks a prefix of the chain (`CursorRow.covered`): up to a paging token, or up to the
ledger before the next start ledger. A page is the beginning of the rest, so a committed page
extends the prefix and the stored events alike (`stored_up_to_checkpoint`). After a page that is not
full, the next start ledger is the one after the latest ledger of the node that answered, whatever
it was before. What keeps a node that lags behind from moving the checkpoint back is the range check
of `getEvents` (`RangeChecked`).
-/

namespace Refract.Events

open Lib List
open NormalizedPoolEvent CursorRow

/-! ## Positions -/

/-- What lies before the checkpoint of a row. -/
def CursorRow.covered (row : CursorRow) (chain : List ChainEvent) : List ChainEvent :=
  match row.cursor with
  | some cursor => through (fun e => decide (e.pagingToken = cursor)) chain
  | none => chain.filter fun e => e.ledger < row.nextStartLedger

/-- The row of an event that is recognised. -/
def recognised (event : ChainEvent) : Option NormalizedPoolEvent :=
  match normalizePoolEvent event with
  | .ok row => row
  | .error _ => none

/-- The recognised events from the start ledger up to the checkpoint. -/
def expectedEvents (startLedger : Nat) (row : CursorRow) (chain : List ChainEvent) :
    List NormalizedPoolEvent :=
  ((row.covered chain).filter fun e => startLedger ≤ e.ledger).filterMap recognised

/-- The stored events are exactly the expected ones, in the order of the chain, and no event is
stored twice. -/
def StoredUpToCheckpoint (startLedger : Nat) (s : PoolState) : Prop :=
  match s.db.row with
  | some row =>
    s.db.events = expectedEvents startLedger row s.chain ∧
      (s.db.events.map eventId).Nodup
  | none => s.db.events = []

/-- The ledger from which a checkpoint goes on: that of the event with the token, or the next start
ledger. -/
def CursorRow.floor (row : CursorRow) (chain : List ChainEvent) : Nat :=
  match row.cursor with
  | some cursor => ((chain.find? fun e => e.pagingToken = cursor).map ChainEvent.ledger).getD 0
  | none => row.nextStartLedger

/-- The ledger that a checkpoint has reached: that of the event with the token, or the one before
the next start ledger. -/
def CursorRow.reached (row : CursorRow) (chain : List ChainEvent) : Nat :=
  match row.cursor with
  | some _ => row.floor chain
  | none => row.nextStartLedger - 1

/-- A later checkpoint: it covers what the earlier one covers, and it has reached as far. -/
def NotBefore (chain : List ChainEvent) (row row' : CursorRow) : Prop :=
  row.covered chain <+: row'.covered chain ∧ row.reached chain ≤ row'.reached chain

/-- Before the step: the range check of `getEvents`. A node answers no request that starts past its
latest ledger; such a request is an error, and the transaction rolls back. -/
def RangeChecked (s : PoolState) : PoolLabel → Prop
  | .answer latestLedger =>
    match s.tx with
    | some (.reading _ row) => row.floor s.chain ≤ latestLedger
    | some (.written _ _) | none => True
  | .close _ | .lock _ | .commit | .rollback => True

instance (s : PoolState) (l : PoolLabel) : Decidable (RangeChecked s l) := by
  unfold RangeChecked
  repeat' split
  all_goals infer_instance

/-! ## The chain -/

/-- Ledgers do not decrease along the chain and are closed, and ids and paging tokens are
different. -/
structure ChainValid (chain : List ChainEvent) (tip : Nat) : Prop where
  ordered : InStampOrder ChainEvent.ledger chain
  closed : ∀ e ∈ chain, e.ledger ≤ tip
  ids : (chain.map ChainEvent.id).Nodup
  tokens : (chain.map ChainEvent.pagingToken).Nodup

variable {chain : List ChainEvent} {tip : Nat} {row : CursorRow}

/-- A checkpoint with a token has it from the chain. -/
def CursorRow.OnChain (row : CursorRow) (chain : List ChainEvent) : Prop :=
  ∀ cursor ∈ row.cursor, ∃ e ∈ chain, e.pagingToken = cursor

theorem CursorRow.reached_le_floor (row : CursorRow) (chain : List ChainEvent) :
    row.reached chain ≤ row.floor chain ∧ row.floor chain ≤ row.reached chain + 1 := by
  cases hcur : row.cursor with
  | none =>
    simp only [reached, floor, hcur]
    omega
  | some =>
    simp only [reached, hcur]
    omega

theorem ChainValid.covered_append_rest (h : ChainValid chain tip) (row : CursorRow) :
    row.covered chain ++ row.rest chain = chain := by
  cases hcur : row.cursor with
  | none =>
    simp only [covered, CursorRow.rest, hcur]
    exact filter_lt_append_filter_le h.ordered _
  | some =>
    simp only [covered, CursorRow.rest, hcur]
    exact through_append_past _ _

variable {post pre : List ChainEvent} {e : ChainEvent}

/-- An event has its token alone among the events before it. -/
theorem ChainValid.token_ne (h : ChainValid (pre ++ e :: post) tip) :
    ∀ x ∈ pre, x.pagingToken ≠ e.pagingToken := by
  intro x hx
  have htokens := h.tokens
  rw [map_append, map_cons] at htokens
  exact (nodup_append.1 htokens).2.2 _ (mem_map_of_mem hx) _ mem_cons_self

/-- Cutting behind the event with a token. -/
theorem ChainValid.covered_of_split (h : ChainValid (pre ++ e :: post) tip)
    (hcur : row.cursor = some e.pagingToken) :
    row.covered (pre ++ e :: post) = pre ++ [e] ∧ row.floor (pre ++ e :: post) = e.ledger := by
  have hpre : ∀ x ∈ pre, decide (x.pagingToken = e.pagingToken) = false :=
    fun x hx => decide_eq_false (h.token_ne x hx)
  refine ⟨?_, ?_⟩
  · simp only [covered, hcur]
    exact through_eq hpre (decide_eq_true rfl)
  · have hnone : (pre.find? fun x => x.pagingToken = e.pagingToken) = none :=
      find?_eq_none.2 fun x hx => by simp [h.token_ne x hx]
    simp [floor, hcur, find?_append, hnone]

/-- What is covered is no later than the ledger reached. -/
theorem ChainValid.ledger_le_reached (h : ChainValid chain tip) (hon : row.OnChain chain) :
    ∀ e ∈ row.covered chain, e.ledger ≤ row.reached chain := by
  intro e he
  cases hcur : row.cursor with
  | none =>
    simp only [covered, hcur, mem_filter, decide_eq_true_eq] at he
    simp only [reached, hcur]
    omega
  | some cursor =>
    obtain ⟨last, hlast, rfl⟩ := hon cursor hcur
    obtain ⟨pre, post, rfl⟩ := append_of_mem hlast
    obtain ⟨hcov, hfloor⟩ := h.covered_of_split hcur
    rw [hcov] at he
    simp only [reached, hcur, hfloor]
    rcases mem_snoc.1 he with hpre | rfl
    · exact (pairwise_append.1 h.ordered).2.2 e hpre last mem_cons_self
    · rfl

/-- What is not covered comes from the floor on. -/
theorem ChainValid.floor_le_ledger (h : ChainValid chain tip) (hon : row.OnChain chain) :
    ∀ e ∈ row.rest chain, row.floor chain ≤ e.ledger := by
  intro e he
  cases hcur : row.cursor with
  | none =>
    simp only [CursorRow.rest, hcur, mem_filter, decide_eq_true_eq] at he
    simp only [floor, hcur]
    exact he.2
  | some cursor =>
    obtain ⟨last, hlast, rfl⟩ := hon cursor hcur
    obtain ⟨pre, post, rfl⟩ := append_of_mem hlast
    obtain ⟨hcov, hfloor⟩ := h.covered_of_split hcur
    have hsplit := h.covered_append_rest row
    rw [hcov] at hsplit
    rw [append_cancel_left (hsplit.trans (append_cons pre last post))] at he
    rw [hfloor]
    have hord := (pairwise_append.1 h.ordered).2.1
    exact (pairwise_cons.1 hord).1 e he

/-! ## Rows of the cursor table -/

/-- A checkpoint on the chain, not before the start ledger and not past the tip. -/
structure RowValid (startLedger : Nat) (chain : List ChainEvent) (tip : Nat) (row : CursorRow) :
    Prop where
  onChain : row.OnChain chain
  settled : row.cursor = none → row.nextStartLedger ≤ tip + 1
  floor : startLedger ≤ row.floor chain

variable {new : List ChainEvent} {latestLedger : Nat} {startLedger : Nat}

theorem ChainValid.page_prefix (hvalid : ChainValid chain tip) (row : CursorRow)
    (latestLedger : Nat) : row.page chain latestLedger <+: row.rest chain := by
  refine pageOf_prefix ?_
  have hord := hvalid.ordered
  rw [← hvalid.covered_append_rest row] at hord
  exact (pairwise_append.1 hord).2.1

/-- A page moves the checkpoint to its end. -/
theorem RowValid.advance (h : RowValid startLedger chain tip row) (hvalid : ChainValid chain tip)
    (hlatest : latestLedger ≤ tip) (hcaught : row.reached chain ≤ latestLedger) :
    let row' := row.advance (row.page chain latestLedger) latestLedger
    row'.covered chain = row.covered chain ++ row.page chain latestLedger ∧
      row.reached chain ≤ row'.reached chain ∧ RowValid startLedger chain tip row' := by
  have hprefix := hvalid.page_prefix row latestLedger
  have hsplit := hvalid.covered_append_rest row
  have hbnd := row.reached_le_floor chain
  have hfloor := h.floor
  simp only [CursorRow.advance]
  split
  · -- A full page: the checkpoint is the token of its last event.
    rename_i hfull
    rcases eq_nil_or_concat (row.page chain latestLedger) with hnil | ⟨init, e, hpage⟩
    · rw [hnil] at hfull
      cases hfull
    obtain ⟨more, hmore⟩ := hprefix
    have hrest : e ∈ row.rest chain := by
      rw [← hmore, hpage]
      simp
    have hledger := hvalid.floor_le_ledger h.onChain e hrest
    have hchain : chain = (row.covered chain ++ init) ++ e :: more := by
      rw [hpage, concat_eq_append] at hmore
      rw [← hmore] at hsplit
      simpa using hsplit.symm
    rw [hpage, concat_eq_append, getLast?_concat, Option.map_some]
    generalize hrow' : CursorRow.mk (some e.pagingToken) row.nextStartLedger = row'
    have hcur : row'.cursor = some e.pagingToken := by rw [← hrow']
    obtain ⟨hcov, hfloor'⟩ : row'.covered chain = row.covered chain ++ init ++ [e] ∧
        row'.floor chain = e.ledger := by
      rw [hchain] at hvalid
      have hboth := hvalid.covered_of_split hcur
      rwa [← hchain] at hboth
    have hreach : row'.reached chain = e.ledger := by
      simp only [reached, hcur, hfloor']
    refine ⟨by rw [hcov, append_assoc], by omega, ?_, ?_, by omega⟩
    · intro cursor hmem
      cases hcur.symm.trans hmem
      exact ⟨e, by rw [hchain]; simp, rfl⟩
    · rw [hcur]
      exact fun hnone => by cases hnone
  · -- A page that is not full has everything up to the latest ledger of the node.
    rename_i hshort
    have hlen : (row.page chain latestLedger).length < eventPageSize := by
      refine lt_of_le_of_ne ?_ hshort
      simp only [CursorRow.page, pageOf, length_take]
      exact min_le_left _ _
    refine ⟨?_, ?_, ?_, ?_, ?_⟩
    · have hbef : ∀ e ∈ row.covered chain, e.ledger ≤ latestLedger :=
        fun e he => (hvalid.ledger_le_reached h.onChain e he).trans hcaught
      have hcut := cut_append_page hbef hlen
      rw [hsplit] at hcut
      exact hcut.symm
    · simp only [reached]
      exact hcaught
    · simp [CursorRow.OnChain]
    · simp only
      omega
    · simp only [CursorRow.floor]
      omega

/-! ## Rows of the event table -/

variable {event : ChainEvent}

theorem normalizeAs_eq_ok {contractId : String} {eventType : PoolEventType}
    {e : NormalizedPoolEvent} (h : normalizeAs event contractId eventType = .ok e) :
    e.eventId = event.id := by
  iterate 3 obtain ⟨_, -, h⟩ := exceptBind_eq_ok h
  cases h
  rfl

/-- A recognised event keeps its id. -/
theorem recognised_eq_some {e : NormalizedPoolEvent} (h : recognised event = some e) :
    e.eventId = event.id := by
  simp only [recognised] at h
  split at h
  · rename_i row hnorm
    simp only [normalizePoolEvent] at hnorm
    split at hnorm
    · split at hnorm
      · rename_i eventType _
        obtain ⟨row, hrow, ⟨⟩⟩ := exceptMap_eq_ok hnorm
        cases h
        exact normalizeAs_eq_ok hrow
      · split at hnorm
        · cases hnorm
        · cases hnorm
          cases h
    · cases hnorm
      cases h
  · cases h

theorem map_recognised_sublist (events : List ChainEvent) :
    ((events.filterMap recognised).map eventId).Sublist (events.map ChainEvent.id) := by
  induction events with
  | nil => exact List.Sublist.refl _
  | cons event _ ih =>
    cases hevent : recognised event with
    | none =>
      rw [filterMap_cons_none hevent]
      exact ih.cons _
    | some =>
      rw [filterMap_cons_some hevent, map_cons, map_cons, recognised_eq_some hevent]
      exact ih.cons_cons _

/-- A page whose events are not stored yet is added event by event. -/
theorem insertPage_eq_ok {page : List ChainEvent} {events stored : List NormalizedPoolEvent}
    (h : insertPage page events = .ok stored)
    (hids : (events.map eventId ++ page.map ChainEvent.id).Nodup) :
    stored = events ++ page.filterMap recognised := by
  induction page generalizing events with
  | nil =>
    cases h
    simp
  | cons event _ ih =>
    obtain ⟨row, hrow, h⟩ := exceptBind_eq_ok h
    cases row with
    | none =>
      have hnone : recognised event = none := by simp [recognised, hrow]
      rw [filterMap_cons_none hnone]
      refine ih h (hids.sublist ?_)
      exact (List.Sublist.refl _).append (sublist_cons_self _ _)
    | some e =>
      have hsome : recognised event = some e := by simp [recognised, hrow]
      have hid := recognised_eq_some hsome
      obtain ⟨events', hinsert, h⟩ := exceptBind_eq_ok h
      -- The id is new, so the row is not ignored.
      have hnew : ¬∃ old ∈ events, old.contractId = e.contractId ∧ old.eventId = e.eventId := by
        rintro ⟨old, hold, -, heq⟩
        refine (nodup_append.1 hids).2.2 _ (mem_map_of_mem hold) _ mem_cons_self ?_
        rw [heq, hid]
      simp only [insertEvent, hnew, if_false] at hinsert
      split at hinsert
      · cases hinsert
      cases hinsert
      rw [filterMap_cons_some hsome, append_cons]
      refine ih h ?_
      rw [map_append, map_singleton, hid, append_assoc]
      exact hids

/-! ## The invariant -/

/-- Tables whose events are those up to the checkpoint. -/
def DbValid (startLedger : Nat) (chain : List ChainEvent) (tip : Nat) (db : PoolDb) : Prop :=
  match db.row with
  | some row =>
    RowValid startLedger chain tip row ∧ db.events = expectedEvents startLedger row chain
  | none => db.events = []

/-- The transaction that holds the row: it has read the committed checkpoint or the one it begins
with, or what it has written is valid and not behind the committed checkpoint. -/
def TxValid (startLedger : Nat) (s : PoolState) : PoolTx → Prop
  | .reading _ row =>
    s.db.row = some row ∨ s.db.row = none ∧ row = ⟨none, startLedger⟩
  | .written _ db =>
    DbValid startLedger s.chain s.tip db ∧
      ∃ row' ∈ db.row, ∀ row ∈ s.db.row, NotBefore s.chain row row'

structure PoolValid (startLedger : Nat) (s : PoolState) : Prop where
  chain : ChainValid s.chain s.tip
  db : DbValid startLedger s.chain s.tip s.db
  tx : ∀ tx ∈ s.tx, TxValid startLedger s tx

theorem PoolValid.initial (startLedger : Nat) : PoolValid startLedger .initial := by
  refine ⟨⟨?_, ?_, ?_, ?_⟩, rfl, ?_⟩
  all_goals simp [PoolState.initial, InStampOrder]

variable {s s' : PoolState} {db : PoolDb}

theorem DbValid.of_row (h : DbValid startLedger chain tip db) (hrow : db.row = some row) :
    RowValid startLedger chain tip row ∧ db.events = expectedEvents startLedger row chain := by
  rwa [DbValid, hrow] at h

section Growth

variable (hvalid : ChainValid (chain ++ new) (tip + 1)) (hnew : ∀ e ∈ new, e.ledger = tip + 1)

include hvalid hnew

/-- The chain grows behind a checkpoint. -/
theorem RowValid.grow (h : RowValid startLedger chain tip row) :
    row.covered (chain ++ new) = row.covered chain ∧
      row.floor (chain ++ new) = row.floor chain := by
  cases hcur : row.cursor with
  | none =>
    have hnone : new.filter (fun e => e.ledger < row.nextStartLedger) = [] := by
      refine filter_eq_nil_iff.2 fun e he => ?_
      have hsettled := h.settled hcur
      have hledger := hnew e he
      simp only [decide_eq_true_eq]
      omega
    simp [covered, CursorRow.floor, hcur, filter_append, hnone]
  | some cursor =>
    obtain ⟨last, hlast, rfl⟩ := h.onChain cursor hcur
    obtain ⟨pre, post, rfl⟩ := append_of_mem hlast
    have hchain : ChainValid (pre ++ last :: post) (tip + 1) :=
      ⟨hvalid.ordered.sublist (sublist_append_left _ _),
        fun e he => hvalid.closed e (mem_append_left _ he),
        hvalid.ids.sublist ((sublist_append_left _ _).map _),
        hvalid.tokens.sublist ((sublist_append_left _ _).map _)⟩
    obtain ⟨hcov, hfloor⟩ := hchain.covered_of_split hcur
    rw [append_assoc, cons_append] at hvalid ⊢
    obtain ⟨hcov', hfloor'⟩ := hvalid.covered_of_split hcur
    rw [hcov, hcov', hfloor, hfloor']
    exact ⟨rfl, rfl⟩

theorem RowValid.of_grow (h : RowValid startLedger chain tip row) :
    RowValid startLedger (chain ++ new) (tip + 1) row where
  onChain cursor hcur := by
    obtain ⟨e, he, htok⟩ := h.onChain cursor hcur
    exact ⟨e, mem_append_left _ he, htok⟩
  settled hcur := (h.settled hcur).trans (Nat.le_succ _)
  floor := by
    rw [(h.grow hvalid hnew).2]
    exact h.floor

theorem DbValid.grow (h : DbValid startLedger chain tip db) :
    DbValid startLedger (chain ++ new) (tip + 1) db := by
  simp only [DbValid] at h ⊢
  split
  · rename_i row hrow
    rw [hrow] at h
    refine ⟨h.1.of_grow hvalid hnew, ?_⟩
    rw [h.2, expectedEvents, expectedEvents, (h.1.grow hvalid hnew).1]
  · rename_i hrow
    rw [hrow] at h
    exact h

theorem NotBefore.grow {row' : CursorRow} (h : NotBefore chain row row')
    (hrow : RowValid startLedger chain tip row) (hrow' : RowValid startLedger chain tip row') :
    NotBefore (chain ++ new) row row' := by
  obtain ⟨hcov, hfloor⟩ := hrow.grow hvalid hnew
  obtain ⟨hcov', hfloor'⟩ := hrow'.grow hvalid hnew
  have hreach : ∀ {r : CursorRow}, r.floor (chain ++ new) = r.floor chain →
      r.reached (chain ++ new) = r.reached chain := by
    intro r hr
    cases hcur : r.cursor with
    | none => simp only [reached, hcur]
    | some => simp only [reached, hcur, hr]
  rw [NotBefore, hcov, hcov', hreach hfloor, hreach hfloor']
  exact h

end Growth

theorem PoolValid.closes (h : PoolValid startLedger s) (hnew : ∀ e ∈ new, e.ledger = s.tip + 1)
    (hids : ((s.chain ++ new).map ChainEvent.id).Nodup)
    (htokens : ((s.chain ++ new).map ChainEvent.pagingToken).Nodup) :
    PoolValid startLedger { s with chain := s.chain ++ new, tip := s.tip + 1 } := by
  have hvalid : ChainValid (s.chain ++ new) (s.tip + 1) := by
    refine ⟨pairwise_append.2 ⟨h.chain.ordered, ?_, ?_⟩, ?_, hids, htokens⟩
    · refine pairwise_iff_forall_sublist.2 fun {a b} hsub => ?_
      rw [hnew a (hsub.subset (by simp)), hnew b (hsub.subset (by simp))]
    · intro a ha b hb
      have hle := h.chain.closed a ha
      rw [hnew b hb]
      omega
    · intro e he
      rcases mem_append.1 he with hold | hadd
      · exact (h.chain.closed e hold).trans (Nat.le_succ _)
      · exact (hnew e hadd).le
  refine ⟨hvalid, h.db.grow hvalid hnew, fun tx htx => ?_⟩
  have hold := h.tx tx htx
  cases tx with
  | reading => exact hold
  | written _ db =>
    obtain ⟨hdb, row', hrow', hnotBefore⟩ := hold
    refine ⟨hdb.grow hvalid hnew, row', hrow', fun row hrow => ?_⟩
    exact (hnotBefore row hrow).grow hvalid hnew (h.db.of_row hrow).1 (hdb.of_row hrow').1

variable {process : Nat}

namespace PoolValid

variable (h : PoolValid startLedger s)

include h

section

variable (htx : s.tx = some (.reading process row)) (hlatest : latestLedger ≤ s.tip)
  (hcaught : row.reached s.chain ≤ latestLedger)

include htx hlatest hcaught

/-- The checkpoint that a transaction goes on from. -/
theorem reading : RowValid startLedger s.chain s.tip row ∧
      s.db.events = expectedEvents startLedger row s.chain := by
  rcases h.tx _ htx with hrow | ⟨hrow, rfl⟩
  · exact h.db.of_row hrow
  have hdb := h.db
  rw [DbValid, hrow] at hdb
  simp only [reached] at hcaught
  refine ⟨⟨by simp [CursorRow.OnChain], fun _ => by simp only; omega, le_rfl⟩, ?_⟩
  -- Nothing from the start ledger on lies before it.
  rw [hdb, expectedEvents, covered]
  simp only [filter_filter]
  rw [filter_eq_nil_iff.2, filterMap_nil]
  simp only [Bool.and_eq_true, decide_eq_true_eq, not_and]
  omega

/-- A page that is ingested leaves the tables valid and does not move the checkpoint back. -/
theorem answers (hingest : ingestPage row s.db.events s.chain latestLedger = .ok db) :
    PoolValid startLedger { s with tx := some (.written process db) } := by
  obtain ⟨hrow, hevs⟩ := h.reading htx hlatest hcaught
  obtain ⟨hcov, hreach, hrow'⟩ := hrow.advance h.chain hlatest hcaught
  have hpage := h.chain.page_prefix row latestLedger
  obtain ⟨stored, hinsert, rfl⟩ := exceptMap_eq_ok hingest
  -- The page lies behind what is stored, so its ids are new.
  have hsublist : (s.db.events.map eventId ++
      (row.page s.chain latestLedger).map ChainEvent.id).Sublist (s.chain.map ChainEvent.id) := by
    have hchain : (row.covered s.chain).map ChainEvent.id ++
        (row.rest s.chain).map ChainEvent.id = s.chain.map ChainEvent.id := by
      rw [← map_append, h.chain.covered_append_rest row]
    rw [← hchain, hevs, expectedEvents]
    refine ((map_recognised_sublist _).trans ?_).append (hpage.sublist.map _)
    exact filter_sublist.map _
  have hstored := insertPage_eq_ok hinsert (h.chain.ids.sublist hsublist)
  refine ⟨h.chain, h.db, fun tx htx' => ?_⟩
  cases htx'
  refine ⟨⟨hrow', ?_⟩, _, rfl, fun committed hcomm => ?_⟩
  · have hfrom : (row.page s.chain latestLedger).filter (fun e => startLedger ≤ e.ledger) =
        row.page s.chain latestLedger := by
      refine filter_eq_self.2 fun e he => decide_eq_true ?_
      exact hrow.floor.trans (h.chain.floor_le_ledger hrow.onChain e (hpage.subset he))
    rw [expectedEvents, hcov, filter_append, filterMap_append, hfrom, hstored,
      hevs, expectedEvents]
  · rcases h.tx _ htx with hsame | ⟨hnone, -⟩
    · cases hsame.symm.trans hcomm
      exact ⟨hcov ▸ prefix_append _ _, hreach⟩
    · cases hnone.symm.trans hcomm

end

theorem step {l : PoolLabel} (hrange : RangeChecked s l)
    (hstep : PoolSteps startLedger s l s') : PoolValid startLedger s' := by
  cases l with
  | close =>
    obtain ⟨hnew, ⟨⟩⟩ := Option.ite_none_right_eq_some.1 hstep
    exact h.closes hnew.1 hnew.2.1 hnew.2.2
  | lock =>
    simp only [PoolSteps, poolStep] at hstep
    split at hstep
    · cases hstep
    · rename_i row _ hrow
      cases hstep
      refine ⟨h.chain, h.db, fun tx htx => ?_⟩
      cases htx
      exact .inl hrow
    · rename_i _ hrow
      split at hstep
      · cases hstep
      cases hstep
      refine ⟨h.chain, h.db, fun tx htx => ?_⟩
      cases htx
      exact .inr ⟨hrow, rfl⟩
  | answer =>
    simp only [PoolSteps, poolStep] at hstep
    split at hstep
    · rename_i process row htx
      split at hstep
      · cases hstep
      rename_i hlatest
      simp only [RangeChecked, htx] at hrange
      split at hstep
      · rename_i db hingest
        cases hstep
        exact h.answers htx (not_lt.1 hlatest)
          ((row.reached_le_floor s.chain).1.trans hrange) hingest
      · cases hstep
        exact ⟨h.chain, h.db, by simp⟩
    · cases hstep
    · cases hstep
  | commit =>
    simp only [PoolSteps, poolStep] at hstep
    split at hstep
    · rename_i process db htx
      cases hstep
      exact ⟨h.chain, (h.tx _ htx).1, by simp⟩
    · cases hstep
    · cases hstep
  | rollback =>
    simp only [PoolSteps, poolStep, Option.map_eq_some_iff] at hstep
    obtain ⟨tx, -, rfl⟩ := hstep
    exact ⟨h.chain, h.db, by simp⟩

theorem stored : StoredUpToCheckpoint startLedger s := by
  have hdb := h.db
  simp only [DbValid] at hdb
  simp only [StoredUpToCheckpoint]
  split
  · rename_i row hrow
    rw [hrow] at hdb
    refine ⟨hdb.2, h.chain.ids.sublist ?_⟩
    rw [hdb.2, expectedEvents]
    have hprefix : row.covered s.chain <+: s.chain := ⟨_, h.chain.covered_append_rest row⟩
    exact (map_recognised_sublist _).trans ((filter_sublist.trans hprefix.sublist).map _)
  · rename_i hrow
    rw [hrow] at hdb
    exact hdb

end PoolValid

/-! ## Runs -/

/-- After each step the stored events are exactly the recognised events from the start ledger up to
the checkpoint, each once, and a commit does not move the checkpoint back. -/
theorem stored_up_to_checkpoint (startLedger : Nat) (s : PoolState)
    (hrun : RunWhere (PoolSteps startLedger) RangeChecked .initial s) :
    StoredUpToCheckpoint startLedger s ∧
      ∀ s', PoolSteps startLedger s .commit s' →
        ∃ row' ∈ s'.db.row, ∀ row ∈ s.db.row, NotBefore s'.chain row row' := by
  have h : PoolValid startLedger s := RunWhere.invariant (PoolValid startLedger) hrun
    (PoolValid.initial startLedger) fun _ _ _ ha => ha.step
  refine ⟨h.stored, fun s' hcommit => ?_⟩
  simp only [PoolSteps, poolStep] at hcommit
  split at hcommit
  · rename_i process db htx
    cases hcommit
    exact (h.tx _ htx).2
  · cases hcommit
  · cases hcommit

/-- An event of the pool contract. -/
def sampleEvent (id : String) (ledger : Nat) : ChainEvent where
  id
  pagingToken := id
  contractId := some "CPOOL"
  topic := [.string "PROVIDE", .string "GHOLDER"]
  value := .array [.bigint 100, .bigint 90]
  ledger
  txHash := "ab"
  ledgerClosedAt := "2026-09-28T21:00:00Z"

/-- Two processes ingest one after the other, the first of them rolls back once. -/
theorem stored_up_to_checkpoint_two_processes :
    ∃ s, RunWhere (PoolSteps 1) RangeChecked .initial s ∧
      s.db.events.map eventId = ["a", "b"] ∧
      s.db.row = some ⟨none, 3⟩ ∧ StoredUpToCheckpoint 1 s :=
  ⟨_, .performed
    [.close [sampleEvent "a" 1], .lock 1, .answer 1, .rollback, .lock 2, .answer 1,
     .close [sampleEvent "b" 2], .commit, .lock 1, .answer 2, .commit] (by decide +kernel),
    by decide +kernel, by decide +kernel,
    (stored_up_to_checkpoint 1 _ (.performed _ _)).1⟩

end Refract.Events
