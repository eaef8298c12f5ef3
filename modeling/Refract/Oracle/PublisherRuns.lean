import Refract.Oracle.BatchPublisher

/-!
# Runs of the publisher

What a step of the publisher can do (`PublisherMove`), and what every run keeps: ids are the keys of
the queue, and no feed has two batches in flight (`PoolSound`).
-/

namespace Refract.Oracle

open Lib List

/-! ## What a step does -/

/-- The ways a step can go, with what it found. -/
inductive PublisherMove (options : PublisherOptions) (s : PublisherState) :
    PublisherLabel → PublisherState → Prop
  | enqueue {decision : NewDecision} {now : ℚ} :
      PublisherMove options s (.enqueue decision now) { s with
        queue := ⟨s.queue.rows ++ [newRow s.queue.nextId decision now], s.queue.nextId + 1⟩
        trace := s.trace ++ [.enqueued s.queue.nextId decision.feed] }
  | duplicate {decision : NewDecision} {now : ℚ} :
      PublisherMove options s (.enqueue decision now)
        { s with queue := { s.queue with nextId := s.queue.nextId + 1 } }
  | idle {ended : List String} {now : ℚ} : PublisherMove options s (.claim ended now) s
  | claim {ended : List String} {now : ℚ} {queue : PublishQueue} {batch : List PendingDecision}
      (hclaim : s.queue.claim options.maxBatchSize options.maxPerFeedPerBatch
        (s.feedsInFlight ++ ended) now = (queue, batch)) :
      PublisherMove options s (.claim ended now) { s with
        queue
        tasks := s.tasks ++
          [⟨(batch.map (·.feed)).eraseDups, process options batch.length batch, none⟩] }
  | send {i : Nat} {txHash : String} {feeds : List String} {batch : List PendingDecision}
      {next : Except SubmitError BatchSubmitResult → PublisherProgram}
      (htask : s.tasks[i]? = some ⟨feeds, .ask (.submit batch) next, none⟩) (hne : txHash ≠ "")
      (hfresh : ∀ tx ∈ s.txs, tx.hash ≠ txHash) (hdead : txHash ∉ s.dead) :
      PublisherMove options s (.send i txHash) { s with
        tasks := s.tasks.set i ⟨feeds, .ask (.submit batch) next, some txHash⟩
        txs := s.txs ++ [⟨txHash, idsOf batch, false⟩] }
  | land {tx : SentTx} (hmem : tx ∈ s.txs) (hlanded : tx.landed = false)
      (hdead : tx.hash ∉ s.dead) :
      PublisherMove options s (.land tx.hash) { s with
        txs := landTx tx.hash s.txs
        trace := s.trace ++ tx.ids.map .landed }
  | submitted {i : Nat} {answer : Except SubmitError BatchSubmitResult} {feeds : List String}
      {batch : List PendingDecision} {txHash : String}
      {next : Except SubmitError BatchSubmitResult → PublisherProgram}
      (htask : s.tasks[i]? = some ⟨feeds, .ask (.submit batch) next, some txHash⟩) :
      PublisherMove options s (.submitted i answer) { s with
        tasks := s.tasks.set i ⟨feeds, next answer, none⟩
        dead := deadAfterSubmit txHash answer s.dead }
  | lookedUp {i : Nat} {answer : Except String TxLookup} {feeds : List String}
      {batch : List PendingDecision} {txHash : String} {sent : Option String}
      {next : Except String TxLookup → PublisherProgram}
      (htask : s.tasks[i]? = some ⟨feeds, .ask (.lookup batch txHash) next, sent⟩) :
      PublisherMove options s (.lookedUp i answer) { s with
        tasks := s.tasks.set i ⟨feeds, next answer, sent⟩
        dead := deadAfterLookup txHash answer s.dead }
  | executed {i : Nat} {now : ℚ} {feeds : List String} {statement : QueueStatement}
      {sent : Option String} {next : Unit → PublisherProgram}
      (htask : s.tasks[i]? = some ⟨feeds, .ask (.statement statement) next, sent⟩) :
      PublisherMove options s (.executed i now) { s with
        queue := s.queue.execute statement now
        tasks := s.tasks.set i ⟨feeds, next (), sent⟩
        trace := s.trace ++ statement.events }
  | drawn {i : Nat} {random : ℚ} {feeds : List String} {sent : Option String}
      {next : ℚ → PublisherProgram}
      (htask : s.tasks[i]? = some ⟨feeds, .ask .random next, sent⟩) :
      PublisherMove options s (.drawn i random)
        { s with tasks := s.tasks.set i ⟨feeds, next random, sent⟩ }
  | finished {i : Nat} {feeds : List String} {sent : Option String}
      (htask : s.tasks[i]? = some ⟨feeds, .done, sent⟩) :
      PublisherMove options s (.finished i) { s with tasks := s.tasks.eraseIdx i }
  | restart :
      PublisherMove options s .restart { s with queue := s.queue.recoverInflight, tasks := [] }

theorem publisherStep_move {options : PublisherOptions} {s s' : PublisherState}
    {label : PublisherLabel} (h : publisherStep options s label = some s') :
    PublisherMove options s label s' := by
  cases label with
  | enqueue =>
    simp only [publisherStep, PublishQueue.enqueue] at h
    split at h <;> cases h
    · simp only [Bool.false_eq_true, if_false, append_nil]
      exact .duplicate
    · exact .enqueue
  | claim =>
    simp only [publisherStep] at h
    split at h
    · split at h <;> cases h
      · exact .idle
      · exact .claim rfl
    · cases h
  | send =>
    simp only [publisherStep] at h
    split at h
    · rename_i feeds batch next htask
      obtain ⟨hhash, ⟨⟩⟩ := Option.ite_none_right_eq_some.1 h
      exact .send htask hhash.1 hhash.2.1 hhash.2.2
    · cases h
  | land =>
    simp only [publisherStep] at h
    split at h
    · rename_i tx hfind
      have htx := find?_some hfind
      simp only [Bool.and_eq_true, decide_eq_true_eq, Bool.not_eq_true'] at htx
      obtain ⟨rfl, hland⟩ := htx
      split at h
      · cases h
      rename_i hdead
      cases h
      exact .land (mem_of_find?_eq_some hfind) hland hdead
    · cases h
  | submitted | lookedUp | executed | drawn | finished =>
    -- What the batch awaits is answered, so there is one move of this label.
    simp only [publisherStep] at h
    split at h
    · rename_i htask
      cases h
      constructor
      exact htask
    · cases h
  | restart =>
    cases h
    exact .restart

/-- Runs of the publisher whose steps all meet a condition. -/
abbrev PublisherRun (options : PublisherOptions) (Cond : PublisherState → PublisherLabel → Prop) :
    PublisherState → PublisherState → Prop :=
  RunWhere (fun s label s' => publisherStep options s label = some s') Cond

/-- The batch that a task is reconciling. -/
def PublisherState.reconciling (s : PublisherState) (i : Nat) : List PendingDecision :=
  match s.tasks[i]? with
  | some ⟨_, .ask (.lookup batch _) _, _⟩ => batch
  | _ => []

/-- The batch that a task has submitted. -/
def PublisherState.submitting (s : PublisherState) (i : Nat) : List PendingDecision :=
  match s.tasks[i]? with
  | some ⟨_, .ask (.submit batch) _, _⟩ => batch
  | _ => []

/-! ## Batches -/

variable {batch : List PendingDecision}

theorem mem_idsOf {id : Nat} : id ∈ idsOf batch ↔ ∃ d ∈ batch, d.id = id := mem_map

theorem mem_idsOf_of_mem {d : PendingDecision} (h : d ∈ batch) : d.id ∈ idsOf batch :=
  mem_map_of_mem h

theorem forall_mem_idsOf {p : Nat → Prop} : (∀ id ∈ idsOf batch, p id) ↔ ∀ d ∈ batch, p d.id := by
  simp only [mem_idsOf, forall_exists_index, and_imp, forall_apply_eq_imp_iff₂]

/-- The halves of a batch that is split. -/
structure Halves (batch head tail : List PendingDecision) : Prop where
  append : head ++ tail = batch
  head_pos : 0 < head.length
  tail_pos : 0 < tail.length
  head_lt : head.length < batch.length
  tail_lt : tail.length < batch.length

theorem halves_midpoint (h : 1 < batch.length) :
    Halves batch (batch.take (midpoint batch)) (batch.drop (midpoint batch)) := by
  refine ⟨take_append_drop _ _, ?_, ?_, ?_, ?_⟩ <;>
    simp only [midpoint, length_take, length_drop] <;> omega

/-! ## The pool -/

/-- Ids are keys, and the batches in flight have no feed in common. -/
structure PoolSound (s : PublisherState) : Prop where
  key : UniqueKey (·.id) s.queue.rows
  fresh : ∀ r ∈ s.queue.rows, r.id < s.queue.nextId
  apart : (s.tasks.map (·.feeds)).Pairwise List.Disjoint

variable {options : PublisherOptions} {s s' : PublisherState} {label : PublisherLabel}
  {tasks : List Task} {i : Nat} {t t' : Task}

/-- A batch in flight keeps its feeds. -/
theorem map_feeds_set (hi : tasks[i]? = some t) (hfeeds : t'.feeds = t.feeds) :
    (tasks.set i t').map (·.feeds) = tasks.map (·.feeds) := by
  obtain ⟨hlt, rfl⟩ := List.getElem?_eq_some_iff.1 hi
  refine ext_getElem? fun j => ?_
  rw [getElem?_map, getElem?_map, getElem?_set]
  split
  · rename_i hij
    subst hij
    simp [hlt, hfeeds]
  · rfl

theorem apart_set (h : (tasks.map (·.feeds)).Pairwise List.Disjoint) (hi : tasks[i]? = some t)
    (hfeeds : t'.feeds = t.feeds) : ((tasks.set i t').map (·.feeds)).Pairwise List.Disjoint := by
  rw [map_feeds_set hi hfeeds]
  exact h

/-- Two places of the pool have no feed in common. -/
theorem PoolSound.disjoint (h : PoolSound s) {j : Nat} (hij : j ≠ i) (hi : s.tasks[i]? = some t)
    (hj : s.tasks[j]? = some t') : t.feeds.Disjoint t'.feeds := by
  refine apart_of_pairwise (fun _ _ h => disjoint_symm h) h.apart hij ?_ ?_
  · rw [getElem?_map, hi]
    rfl
  · rw [getElem?_map, hj]
    rfl

theorem QueueStatement.update_id (statement : QueueStatement) (now : ℚ) (r : QueueRow) :
    (statement.update now r).id = r.id := by
  cases statement with
  | markPublished | release | markFailed => rfl

theorem QueueStatement.update_feed (statement : QueueStatement) (now : ℚ) (r : QueueRow) :
    (statement.update now r).feed = r.feed := by
  cases statement with
  | markPublished | release | markFailed => rfl

variable {rows : List QueueRow}

theorem PoolSound.step (h : PoolSound s) (hmove : PublisherMove options s label s') :
    PoolSound s' := by
  cases hmove with
  | enqueue =>
    refine ⟨h.key.insert fun r hr => (h.fresh r hr).ne, ?_, h.apart⟩
    exact forall_mem_snoc.2
      ⟨fun r hr => (h.fresh r hr).trans (Nat.lt_succ_self _), Nat.lt_succ_self _⟩
  | duplicate => exact ⟨h.key, fun r hr => (h.fresh r hr).trans (Nat.lt_succ_self _), h.apart⟩
  | idle => exact h
  | claim hclaim =>
    obtain ⟨taken, hspec⟩ := claim_spec h.key hclaim
    cases hclaim
    refine ⟨h.key.updateWhere fun _ _ _ => rfl,
      forall_mem_updateWhere h.fresh fun _ _ _ hlt => hlt, ?_⟩
    rw [map_append]
    refine pairwise_snoc.2 ⟨h.apart, fun feeds hfeeds => ?_⟩
    obtain ⟨t, ht, rfl⟩ := mem_map.1 hfeeds
    -- A claim takes no row of a feed in flight.
    intro feed hfeed hnew
    rw [mem_eraseDups, mem_map] at hnew
    obtain ⟨d, hd, rfl⟩ := hnew
    obtain ⟨r, hr, rfl⟩ := (hspec.mem_batch d).1 hd
    refine (hspec.eligible r hr).2.2 (mem_append_left _ ?_)
    exact mem_flatMap.2 ⟨t, ht, hfeed⟩
  | send htask | submitted htask | lookedUp htask | drawn htask =>
    exact { h with apart := apart_set h.apart htask rfl }
  | land => exact { h with }
  | executed htask =>
    refine ⟨h.key.updateWhere fun r _ _ => QueueStatement.update_id _ _ r,
      forall_mem_updateWhere h.fresh fun r _ _ hlt => ?_, apart_set h.apart htask rfl⟩
    rwa [QueueStatement.update_id]
  | finished => exact ⟨h.key, h.fresh, h.apart.sublist ((eraseIdx_sublist _ _).map _)⟩
  | restart =>
    exact ⟨h.key.updateWhere fun _ _ _ => rfl,
      forall_mem_updateWhere h.fresh fun _ _ _ hlt => hlt, List.Pairwise.nil⟩

/-- Whatever is answered, and over restarts, batches in flight have no feed in common. -/
theorem in_flight_apart (hrun : PublisherRun options (fun _ _ => True) .start s) : PoolSound s := by
  refine hrun.invariant PoolSound ?_ fun _ _ _ h _ hstep => h.step (publisherStep_move hstep)
  constructor <;> simp [PublisherState.start, PublishQueue.empty, UniqueKey]

theorem in_flight_apart_two :
    ∃ s, PublisherRun defaultPublisherOptions (fun _ _ => True) .start s ∧
      s.tasks.map (·.feeds) = [["quake"], ["flood"]] ∧ PoolSound s :=
  ⟨_, .performed [.enqueue ⟨"quake:1", "quake", 71, 1⟩ 0, .claim [] 0,
    .enqueue ⟨"flood:1", "flood", 2, 1⟩ 0, .claim [] 0] (by decide +kernel), by decide +kernel,
    in_flight_apart (.performed _ _)⟩

variable {r : QueueRow}

/-- A claim leaves the rows alone that are not pending. -/
theorem ClaimSpec.mem_of_status {taken rows' : List QueueRow} {excludeFeeds : List String}
    (h : ClaimSpec rows excludeFeeds taken rows' batch)
    (hr : r ∈ rows) (hstat : r.status ≠ .pending) : r ∈ rows' :=
  (h.mem_rows r).2 ⟨r, hr, .inr ⟨fun hin => hstat (h.eligible r hin).2.1, rfl⟩⟩

variable {queue : PublishQueue} {statement : QueueStatement} {now : ℚ}

/-- A statement leaves the rows alone that it does not name. -/
theorem mem_execute_of_notMem (hr : r ∈ queue.rows) (hid : r.id ∉ statement.ids) :
    r ∈ (queue.execute statement now).rows :=
  mem_updateWhere.2 ⟨r, hr, .inr ⟨by simpa using hid, rfl⟩⟩

theorem mem_execute_of_mem (hr : r ∈ queue.rows) (hid : r.id ∈ statement.ids) :
    statement.update now r ∈ (queue.execute statement now).rows :=
  mem_updateWhere.2 ⟨r, hr, .inl ⟨by simpa using hid, rfl⟩⟩

end Refract.Oracle
